import LogForwarder.Proofs.Schema.Defaults
import LogForwarder.Proofs.Workload.Envelope

/-!
# Parts of objects that load

An object loads by its kind, its metadata and its content, and it loads with any part of it
replaced by one that fits: the metadata (`LoadsAs.put_metadata`) or the specification
(`LoadsAs.put_spec`).
-/

namespace LogForwarder

open Schema

namespace Workload

variable {σ : Type} [WorkloadKind σ] {v : Value} {ms : Members} {r : Workload σ}

/-- What an object is read from once its metadata are known. -/
def reassembled (ms : Members) (metadata : ObjectMeta) : Members :=
  (content ms).put "metadata" metadata.toValue

theorem loadsAs_map_iff (hkind : WorkloadKind.kind σ ≠ "") :
    LoadsAs (.map ms) r ↔ ApiObject.GivesKind ms (WorkloadKind.kind σ) ∧
      ∃ metadata w, ApiObject.metadata? ms = some metadata ∧
        (schema σ).ofValue (.map (reassembled ms metadata)) = .ok w ∧ r = .ofValue w := by
  unfold LoadsAs
  constructor
  · rintro ⟨o, hload, hparse⟩
    simp only [ApiObject.parse] at hparse
    split_ifs at hparse with hk
    refine ⟨(ApiObject.kind_eq_iff_givesKind hload hkind).mp hk, ?_⟩
    rw [ApiObject.ofValue?_map] at hload
    obtain ⟨metadata, hmetadata, rfl⟩ := Option.map_eq_some_iff.mp hload
    split at hparse
    · rename_i w hw
      exact ⟨metadata, w, hmetadata, hw, (Except.ok.inj hparse).symm⟩
    · cases hparse
  · rintro ⟨hgives, metadata, w, hmetadata, hw, rfl⟩
    have hload : ApiObject.ofValue? (.map ms) =
        some ⟨ApiObject.envelope? ms, metadata, content ms⟩ := by
      rw [ApiObject.ofValue?_map, hmetadata]
      rfl
    refine ⟨_, hload, ?_⟩
    unfold ApiObject.parse
    rw [if_pos ((ApiObject.kind_eq_iff_givesKind hload hkind).mpr hgives)]
    unfold ApiObject.toValue
    unfold reassembled at hw
    rw [hw]

/-- Metadata are written as they were read, also where there are none. -/
theorem metadata_of_metadata? {metadata : ObjectMeta}
    (h : ApiObject.metadata? ms = some metadata) :
    ObjectMeta.schema.ofValue ((ms.get? "metadata").getD (.map [])) = .ok metadata.toValue := by
  unfold ApiObject.metadata? at h
  cases hv : Members.get? ms "metadata" with
  | none =>
    rw [hv] at h
    cases h
    rfl
  | some v =>
    rw [hv] at h
    obtain ⟨z, hz, rfl⟩ := Option.map_eq_some_iff.mp h
    have hread : ObjectMeta.schema.ofValue v = .ok z := by
      cases hr : ObjectMeta.schema.ofValue v with
      | error m => rw [hr] at hz; cases hz
      | ok z' => rw [hr] at hz; cases hz; rfl
    have hcanonical := isCanonical_of_ofValue (s := ObjectMeta.schema) (by decide) hread
    rw [ObjectMeta.restores z hcanonical]
    exact hread

theorem metadata?_put {u z : Value} (hu : ObjectMeta.schema.ofValue u = .ok z) :
    ApiObject.metadata? (ms.put "metadata" u) = some (.ofValue z) := by
  unfold ApiObject.metadata?
  rw [Members.get?_put_self]
  show (ObjectMeta.schema.ofValue u).toOption.map _ = _
  rw [hu]
  rfl

theorem reassembled_put_spec (metadata : ObjectMeta) (u : Value) :
    reassembled (ms.put "spec" u) metadata = (reassembled ms metadata).put "spec" u := by
  have hcontent : content (ms.put "spec" u) = (content ms).put "spec" u := by
    refine Members.filter_put_of_lt (fun key => key ∉ ["apiVersion", "kind", "metadata"])
      (by decide) (fun key hkey => ?_) ms u
    have hcases : key = "apiVersion" ∨ key = "kind" ∨ key = "metadata" := by
      simpa [or_iff_not_imp_left] using hkey
    rcases hcases with rfl | rfl | rfl <;> decide
  unfold reassembled
  rw [hcontent, ← Members.put_comm _ (by decide)]

theorem reassembled_put_metadata (metadata : ObjectMeta) (u : Value) (metadata' : ObjectMeta) :
    reassembled (ms.put "metadata" u) metadata' =
      (reassembled ms metadata).put "metadata" metadata'.toValue := by
  have hcontent : content (ms.put "metadata" u) = content ms :=
    Members.filter_put_of_not (fun key => key ∉ ["apiVersion", "kind", "metadata"]) (by decide) ms u
  unfold reassembled
  rw [hcontent, Members.put_put]

theorem givesKind_put {key : String} (hkey : key ∉ ["apiVersion", "kind"]) {kind : String}
    (h : ApiObject.GivesKind ms kind) (u : Value) : ApiObject.GivesKind (ms.put key u) kind := by
  obtain ⟨version, hversion, hkind⟩ := h
  obtain ⟨hneVersion, hneKind⟩ : key ≠ "apiVersion" ∧ key ≠ "kind" := by simpa using hkey
  refine ⟨version, ?_, ?_⟩
  · rw [Members.get?_put_of_ne _ _ hneVersion]
    exact hversion
  · rw [Members.get?_put_of_ne _ _ hneKind]
    exact hkind

/-! ## Objects with a part replaced -/

section

variable (hkind : WorkloadKind.kind σ ≠ "") (h : LoadsAs (.map ms) r)

include hkind h

/-- An object loads with any specification that fits. -/
theorem LoadsAs.put_spec :
    ∃ z, (WorkloadKind.schema σ).ofValue ((ms.get? "spec").getD (.map [])) = .ok z ∧
      r.spec = WorkloadKind.ofValue z ∧
      ∀ u y, (WorkloadKind.schema σ).ofValue u = .ok y →
        LoadsAs (.map (ms.put "spec" u)) { r with spec := (WorkloadKind.ofValue y : σ) } := by
  obtain ⟨hgives, metadata, w, hmetadata, hw, rfl⟩ := (loadsAs_map_iff hkind).mp h
  obtain ⟨out, rfl, harranged, hreads⟩ := reads_of_ofValue nodup_names hw
  let m : MemberInfo × Schema := (⟨"spec", .required, {}⟩, WorkloadKind.schema σ)
  have hm : m ∈ members σ := by simp [members, m]
  have hget : (reassembled ms metadata).get? "spec" = ms.get? "spec" := by
    unfold reassembled
    rw [Members.get?_put_of_ne _ _ (by decide), get?_content]
    rfl
  have hreadsSpec : Reads m (ms.get? "spec") (out.get? "spec") := hget ▸ hreads m hm
  obtain ⟨z, hz, hspec⟩ := hreadsSpec.ofValue_getD (.inl rfl)
  have hmember : (Value.map out).member "spec" = z := by
    rw [member_map, hz]
    rfl
  refine ⟨z, hspec, congrArg WorkloadKind.ofValue hmember, fun u y hu => ?_⟩
  have hmetadata' : ApiObject.metadata? (ms.put "spec" u) = some metadata := by
    rw [← hmetadata]
    unfold ApiObject.metadata?
    rw [Members.get?_put_of_ne _ _ (by decide)]
  have hread : (schema σ).ofValue (.map (reassembled (ms.put "spec" u) metadata)) =
      .ok (.map (updated (members σ) out "spec" y)) := by
    rw [reassembled_put_spec]
    exact ofValue_put nodup_names hm hw hu
  refine (loadsAs_map_iff hkind).mpr
    ⟨givesKind_put (by decide) hgives u, metadata, _, hmetadata', hread, ?_⟩
  have hupdated : ∀ name, (Value.map (updated (members σ) out "spec" y)).member name =
      if name = "spec" then y else (Value.map out).member name := member_updated hm harranged y
  simp [ofValue, hupdated]

/-- An object loads with any metadata that fit. -/
theorem LoadsAs.put_metadata :
    ∃ z, ObjectMeta.schema.ofValue ((ms.get? "metadata").getD (.map [])) = .ok z ∧
      r.metadata = .ofValue z ∧
      ∀ u y, ObjectMeta.schema.ofValue u = .ok y →
        LoadsAs (.map (ms.put "metadata" u)) { r with metadata := .ofValue y } := by
  obtain ⟨hgives, metadata, w, hmetadata, hw, rfl⟩ := (loadsAs_map_iff hkind).mp h
  obtain ⟨out, rfl, harranged, hreads⟩ := reads_of_ofValue nodup_names hw
  let m : MemberInfo × Schema := (⟨"metadata", .required, {}⟩, ObjectMeta.schema)
  have hm : m ∈ members σ := by simp [members, m]
  have hgiven := metadata_of_metadata? hmetadata
  -- The metadata stand in the object as they were read.
  have hself : ObjectMeta.schema.ofValue metadata.toValue = .ok metadata.toValue :=
    ofValue_of_isCanonical (by decide) (isCanonical_of_ofValue (by decide) hgiven)
  have hout : (Value.map out).member "metadata" = metadata.toValue := by
    have hget : (reassembled ms metadata).get? "metadata" = some metadata.toValue :=
      Members.get?_put_self _ _ _
    have hreadsSelf : Reads m (some metadata.toValue) (out.get? "metadata") := hget ▸ hreads m hm
    have hne : metadata.toValue ≠ .null := nofun
    obtain ⟨z, hz, hsome⟩ := (reads_some_iff hne).mp hreadsSelf
    cases hself.symm.trans hz
    rw [member_map, hsome]
    rfl
  refine ⟨_, hgiven, congrArg ObjectMeta.ofValue hout, fun u y hu => ?_⟩
  have hcanonical : ObjectMeta.schema.isCanonical y := isCanonical_of_ofValue (by decide) hu
  have hread : (schema σ).ofValue (.map (reassembled (ms.put "metadata" u) (.ofValue y))) =
      .ok (.map (updated (members σ) out "metadata" y)) := by
    rw [reassembled_put_metadata metadata, ObjectMeta.restores y hcanonical]
    exact ofValue_put nodup_names hm hw (ofValue_of_isCanonical (by decide) hcanonical)
  refine (loadsAs_map_iff hkind).mpr
    ⟨givesKind_put (by decide) hgives u, .ofValue y, _, metadata?_put hu, hread, ?_⟩
  have hupdated : ∀ name, (Value.map (updated (members σ) out "metadata" y)).member name =
      if name = "metadata" then y else (Value.map out).member name := member_updated hm harranged y
  simp [ofValue, hupdated]

/-! ## Objects with a default written out -/

variable {α : Type}

omit h in
/-- A default of a specification is one of the objects that have it. -/
theorem LoadsAs.writeOut_spec {complete : σ → α} {d : Default} {w : Value}
    (hd : Keeps (WorkloadKind.schema σ) (fun v => complete (WorkloadKind.ofValue v)) d)
    (h : LoadsAs v r) (homits : v.Omits (d.under "spec").path)
    (hset : v.set? (d.under "spec").path d.value = some w) :
    ∃ s : σ, LoadsAs w { r with spec := s } ∧ complete s = complete r.spec := by
  obtain ⟨ms, u, rfl, hu, rfl⟩ := Value.set?_cons_eq_some hset
  obtain ⟨z, hz, hspec, hput⟩ := h.put_spec hkind
  obtain ⟨y, hy, hsame⟩ := hd.keeps _ _ _ hz (homits.of_map_cons hd.path_ne_nil) hu
  exact ⟨_, hput u y hy, hsame.trans (congrArg complete hspec.symm)⟩

omit h in
/-- A default of metadata is one of the objects that have them. -/
theorem LoadsAs.writeOut_metadata {complete : ObjectMeta → α} {d : Default} {w : Value}
    (hd : Keeps ObjectMeta.schema (fun v => complete (.ofValue v)) d)
    (h : LoadsAs v r) (homits : v.Omits (d.under "metadata").path)
    (hset : v.set? (d.under "metadata").path d.value = some w) :
    ∃ metadata, LoadsAs w { r with metadata := metadata } ∧
      complete metadata = complete r.metadata := by
  obtain ⟨ms, u, rfl, hu, rfl⟩ := Value.set?_cons_eq_some hset
  obtain ⟨z, hz, hmetadata, hput⟩ := h.put_metadata hkind
  obtain ⟨y, hy, hsame⟩ := hd.keeps _ _ _ hz (homits.of_map_cons hd.path_ne_nil) hu
  exact ⟨_, hput u y hy, hsame.trans (congrArg complete hmetadata.symm)⟩

end

end Workload

end LogForwarder
