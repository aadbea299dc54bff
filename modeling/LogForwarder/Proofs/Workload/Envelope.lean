import LogForwarder.Proofs.Except
import LogForwarder.Proofs.Workload.RoundTrip

/-!
# Kinds and versions of what is read

Objects and documents both say of which version and kind they are, but only documents are held to
both.

1. A document is refused as one of another kind exactly if it gives another version or another kind
   (`Manifest.saysOtherKind_parse_iff`).
2. An object is refused so by its kind alone (`ApiObject.saysOtherKind_parse_iff`), and what becomes
   of it is the same for every version (`ApiObject.parse_congr`).
3. So an object is held to its version exactly if it has the one that is expected, or is of another
   kind anyway (`forwarders_and_collections_readByKind`).
-/

namespace LogForwarder

/-! ## Refusals -/

/-- Whether something was refused as being of another kind. -/
def SaysOtherKind {α : Type} (result : Except GenerationError α) : Prop :=
  ∃ expected found, result = .error (.otherKind expected found)

section

variable {α β : Type}

theorem not_saysOtherKind_ok (a : α) : ¬SaysOtherKind (.ok a) := by
  rintro ⟨_, _, h⟩
  cases h

theorem saysOtherKind_error_iff {e : GenerationError} :
    SaysOtherKind (.error e : Except GenerationError α) ↔
      ∃ expected found, e = .otherKind expected found := by
  simp [SaysOtherKind]

theorem saysOtherKind_map_iff {x : Except GenerationError α} {f : α → β} :
    SaysOtherKind (x.map f) ↔ SaysOtherKind x := by
  cases x with
  | error e => exact saysOtherKind_error_iff.trans saysOtherKind_error_iff.symm
  | ok a => exact iff_of_false (not_saysOtherKind_ok _) (not_saysOtherKind_ok _)

theorem saysOtherKind_bind_iff {x : Except GenerationError α} {f : α → Except GenerationError β} :
    SaysOtherKind (x >>= f) ↔ SaysOtherKind x ∨ ∃ a, x = .ok a ∧ SaysOtherKind (f a) := by
  cases x with
  | error e =>
    show SaysOtherKind (.error e) ↔ _
    simp [saysOtherKind_error_iff]
  | ok a =>
    show SaysOtherKind (f a) ↔ _
    simp [not_saysOtherKind_ok]

end

/-! ## Documents -/

namespace Manifest

variable {σ : Type} [WorkloadKind σ] {text : String}

theorem not_saysOtherKind_read (schema : Schema) (kind text : String) :
    ¬SaysOtherKind (read schema kind text) := by
  rintro ⟨expected, found, h⟩
  unfold read at h
  split at h
  · cases h
  · split at h <;> cases h

theorem not_saysOtherKind_envelope (kind text : String) : ¬SaysOtherKind (envelope kind text) := by
  unfold envelope
  rw [saysOtherKind_map_iff]
  exact not_saysOtherKind_read _ _ _

/-- A document is held to the version and the kind of the workload that it is read as. -/
theorem saysOtherKind_parse_iff : SaysOtherKind (parse σ text) ↔
    ∃ e, envelope (WorkloadKind.kind σ) text = .ok e ∧ e ≠ Envelope.ofKind σ := by
  unfold parse
  rw [saysOtherKind_bind_iff, or_iff_right (not_saysOtherKind_envelope _ _)]
  refine exists_congr fun e => and_congr_right fun _ => ?_
  by_cases he : e = Envelope.ofKind σ
  · refine iff_of_false ?_ (not_not_intro he)
    simp only [if_pos he]
    rw [saysOtherKind_bind_iff, or_iff_right (not_saysOtherKind_read _ _ _)]
    rintro ⟨v, -, h⟩
    exact not_saysOtherKind_ok _ h
  · refine iff_of_true ?_ he
    simp only [if_neg he]
    exact ⟨_, _, rfl⟩

end Manifest

/-! ## Objects -/

namespace ApiObject

/-- Whether an object gives a version and a kind. -/
def Gives (ms : Members) (e : Envelope) : Prop :=
  ms.get? "apiVersion" = some (.str e.apiVersion) ∧ ms.get? "kind" = some (.str e.kind)

/-- Whether an object gives a version, whichever, and this kind. -/
def GivesKind (ms : Members) (kind : String) : Prop := ∃ version, Gives ms ⟨version, kind⟩

theorem envelope?_eq_some_iff {ms : Members} {e : Envelope} :
    envelope? ms = some e ↔ Gives ms e := by
  unfold envelope? Gives
  constructor
  · intro h
    split at h
    · cases h
      exact ⟨‹_›, ‹_›⟩
    · cases h
  · rintro ⟨hversion, hkind⟩
    rw [hversion, hkind]

theorem ofValue?_map (ms : Members) : ofValue? (.map ms) =
    (metadata? ms).map fun metadata => ⟨envelope? ms, metadata, Workload.content ms⟩ := by
  show (metadata? ms >>= fun metadata => some _) = _
  cases metadata? ms <;> rfl

variable {σ : Type} [WorkloadKind σ]

theorem saysOtherKind_parse_iff {o : ApiObject} :
    SaysOtherKind (o.parse σ) ↔ o.kind ≠ WorkloadKind.kind σ := by
  unfold parse
  constructor
  · rintro ⟨expected, found, h⟩ hkind
    rw [if_pos hkind] at h
    split at h <;> cases h
  · intro hkind
    exact ⟨_, _, if_neg hkind⟩

/-- What becomes of an object hangs on its kind, its metadata and what it reads as. -/
theorem parse_congr_of_ofValue {o o' : ApiObject} (hkind : o.kind = o'.kind)
    (hmetadata : o.metadata = o'.metadata)
    (hread : (Workload.schema σ).ofValue o.toValue = (Workload.schema σ).ofValue o'.toValue) :
    o.parse σ = o'.parse σ := by
  unfold parse identity
  rw [hkind, hmetadata, hread]

/-- What an object reads as hangs on its metadata and its content. -/
theorem parse_congr {o o' : ApiObject} (hkind : o.kind = o'.kind)
    (hmetadata : o.metadata = o'.metadata) (hcontent : o.content = o'.content) :
    o.parse σ = o'.parse σ := by
  refine parse_congr_of_ofValue hkind hmetadata ?_
  unfold toValue
  rw [hmetadata, hcontent]

variable {ms : Members} {o : ApiObject}

theorem kind_eq_iff_givesKind (hload : ofValue? (.map ms) = some o) {kind : String}
    (hkind : kind ≠ "") : o.kind = kind ↔ GivesKind ms kind := by
  rw [ofValue?_map] at hload
  obtain ⟨metadata, -, rfl⟩ := Option.map_eq_some_iff.mp hload
  unfold ApiObject.kind GivesKind
  constructor
  · intro h
    cases he : envelope? ms with
    | none =>
      rw [he] at h
      exact absurd h.symm hkind
    | some e =>
      rw [he] at h
      obtain ⟨hversion, hgiven⟩ := envelope?_eq_some_iff.mp he
      exact ⟨e.apiVersion, hversion, h ▸ hgiven⟩
  · rintro ⟨version, hgiven⟩
    have he : envelope? ms = some ⟨version, kind⟩ := envelope?_eq_some_iff.mpr hgiven
    rw [he]
    rfl

/-- The same object with another version. -/
theorem ofValue?_put_version (hload : ofValue? (.map ms) = some o) {kind : String}
    (hgives : GivesKind ms kind) (version : String) :
    ofValue? (.map (ms.put "apiVersion" (.str version))) =
      some { o with envelope := some ⟨version, kind⟩ } := by
  obtain ⟨_, -, hkind⟩ := hgives
  have henvelope : envelope? (ms.put "apiVersion" (.str version)) = some ⟨version, kind⟩ := by
    refine envelope?_eq_some_iff.mpr ⟨Members.get?_put_self _ _ _, ?_⟩
    rw [Members.get?_put_of_ne _ _ (by decide)]
    exact hkind
  have hmetadata : metadata? (ms.put "apiVersion" (.str version)) = metadata? ms := by
    unfold metadata?
    rw [Members.get?_put_of_ne _ _ (by decide)]
  have hcontent : Workload.content (ms.put "apiVersion" (.str version)) = Workload.content ms :=
    Members.filter_put_of_not (fun key => key ∉ ["apiVersion", "kind", "metadata"]) (by decide) ms _
  rw [ofValue?_map] at hload ⊢
  obtain ⟨metadata, hread, rfl⟩ := Option.map_eq_some_iff.mp hload
  rw [henvelope, hmetadata, hcontent, hread]
  rfl

/-! ## Both kinds -/

variable (σ) in
/-- Whether an object is held to the version and the kind of a workload, as documents are. -/
def HeldToEnvelope (ms : Members) (o : ApiObject) : Prop :=
  SaysOtherKind (o.parse σ) ↔ ¬Gives ms (Envelope.ofKind σ)

variable (σ) in
/-- Whether an object is read as a workload by its kind alone. -/
structure ReadByKind (ms : Members) (o : ApiObject) : Prop where
  /-- It is one of another kind unless it gives a version, whichever, and this kind. -/
  saysOtherKind_iff : SaysOtherKind (o.parse σ) ↔ ¬GivesKind ms (WorkloadKind.kind σ)
  /-- What becomes of an object of the kind is the same with any other version. -/
  anyVersion : GivesKind ms (WorkloadKind.kind σ) → ∀ version : String, ∃ o' : ApiObject,
    ofValue? (.map (ms.put "apiVersion" (.str version))) = some o' ∧
      o'.envelope = some ⟨version, WorkloadKind.kind σ⟩ ∧ o'.parse σ = o.parse σ
  /-- So only those of another version are not held to their envelope. -/
  heldToEnvelope_iff : HeldToEnvelope σ ms o ↔
    (GivesKind ms (WorkloadKind.kind σ) → Gives ms (Envelope.ofKind σ))

theorem readByKind_of_kind_ne (hkind : WorkloadKind.kind σ ≠ "")
    (hload : ofValue? (.map ms) = some o) : ReadByKind σ ms o := by
  have hrefused : SaysOtherKind (o.parse σ) ↔ ¬GivesKind ms (WorkloadKind.kind σ) := by
    rw [saysOtherKind_parse_iff, ← kind_eq_iff_givesKind hload hkind]
  refine ⟨hrefused, ?_, ?_⟩
  · intro hgives version
    refine ⟨_, ofValue?_put_version hload hgives version, rfl, ?_⟩
    refine parse_congr ?_ rfl rfl
    exact ((kind_eq_iff_givesKind hload hkind).mpr hgives).symm
  · -- Whoever gives the whole envelope gives the kind, so the two refusals differ one way only.
    have hgives : Gives ms (Envelope.ofKind σ) → GivesKind ms (WorkloadKind.kind σ) := by
      intro h
      exact ⟨_, h⟩
    unfold HeldToEnvelope
    rw [hrefused, not_iff_not]
    exact ⟨Iff.mp, fun h => ⟨h, hgives⟩⟩

end ApiObject

/-- **The version of an object is not looked at.** Objects of both kinds are read by their kind
alone, and so they are held to their version and kind exactly if they do not give the kind with
another version. Documents are held to both. -/
theorem forwarders_and_collections_readByKind {ms : Members} {o : ApiObject}
    (hload : ApiObject.ofValue? (.map ms) = some o) (text : String) :
    (ApiObject.ReadByKind ForwarderSpec ms o ∧ ApiObject.ReadByKind CollectionSpec ms o) ∧
      (SaysOtherKind (Manifest.parse ForwarderSpec text) ↔
        ∃ e, Manifest.envelope "OCMLogForwarder" text = .ok e ∧
          e ≠ Envelope.ofKind ForwarderSpec) ∧
      (SaysOtherKind (Manifest.parse CollectionSpec text) ↔
        ∃ e, Manifest.envelope "OCMLogForwarderConfig" text = .ok e ∧
          e ≠ Envelope.ofKind CollectionSpec) := by
  have hforwarder : WorkloadKind.kind ForwarderSpec ≠ "" := by decide
  have hcollection : WorkloadKind.kind CollectionSpec ≠ "" := by decide
  refine ⟨⟨?_, ?_⟩, ?_, ?_⟩
  · exact ApiObject.readByKind_of_kind_ne hforwarder hload
  · exact ApiObject.readByKind_of_kind_ne hcollection hload
  · exact Manifest.saysOtherKind_parse_iff
  · exact Manifest.saysOtherKind_parse_iff

/-- The members of an object that says that it is a forwarder, of a version. -/
def forwarderObject (version : String) : Members :=
  [ ("apiVersion", .str version), ("kind", .str "OCMLogForwarder"),
    ("metadata", .map [("name", .str "sample")]),
    ("spec", .map [("ocm", .map [("clusterId", .str "abc123")])]) ]

/-- An object of another group and version is read as a forwarder. -/
theorem loadsAs_of_other_group :
    ∃ r : Forwarder, Workload.LoadsAs (.map (forwarderObject "other.example/v2")) r ∧
      ∃ o, ApiObject.ofValue? (.map (forwarderObject "other.example/v2")) = some o ∧
        ¬ApiObject.HeldToEnvelope ForwarderSpec (forwarderObject "other.example/v2") o := by
  let r : Forwarder :=
    { metadata := { name := some "sample" }, spec := { ocm := { clusterId := "abc123" } } }
  obtain ⟨o, hload, hparse⟩ : Workload.LoadsAs (.map (forwarderObject "other.example/v2")) r :=
    ⟨_, rfl, rfl⟩
  refine ⟨r, ⟨o, hload, hparse⟩, o, hload, ?_⟩
  rw [(forwarders_and_collections_readByKind hload "").1.1.heldToEnvelope_iff]
  intro h
  obtain ⟨hversion, -⟩ := h ⟨"other.example/v2", rfl, rfl⟩
  exact absurd hversion (by decide)

end LogForwarder
