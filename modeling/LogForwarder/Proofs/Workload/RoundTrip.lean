import LogForwarder.Workload.ApiObject
import LogForwarder.Proofs.Value.Record

/-!
# Objects read again

1. Every type that an object is made of writes the canonical value that it was read from.
2. What is written loads as what was written, as it stands or with the members of its maps sorted
   by key (`loadsAs_written`), so that loading an object of either kind is idempotent.
-/

namespace LogForwarder

open Schema

/-! ## The types of an object -/

theorem BackendType.restores :
    Restores .text (fun v => ofText v.asText) (fun t => .str t.text) := by
  intro v h
  cases v with
  | str s => exact congrArg Value.str (text_ofText s)
  | _ => cases h

theorem AuthType.restores :
    Restores (.choice [basic.text]) (fun v => ofText v.asText) (fun t => .str t.text) :=
  restores_choice rfl

theorem Provider.restores :
    Restores (.choice [rosa.text]) (fun v => ofText v.asText) (fun p => .str p.text) :=
  restores_choice rfl

theorem ElasticSearchSpec.restores : Restores schema ofValue toValue := by
  refine restores_record (by decide)
    (.cons (restores_text.writes (by decide))
      (.cons (AuthType.restores.writes (by decide))
        (.cons (restores_text.writes (by decide))
          (.cons (restores_text.writes_omittable rfl) .nil)))) fun v => ?_
  simp [toValue, ofValue]

theorem BackendSpec.restores : Restores schema ofValue toValue := by
  refine restores_record (by decide)
    (.cons (BackendType.restores.writes (by decide))
      (.cons (ElasticSearchSpec.restores.writes (by decide)) .nil)) fun v => ?_
  simp [toValue, ofValue]

theorem CollectionReference.restores : Restores schema ofValue toValue := by
  refine restores_record (by decide)
    (.cons (restores_text.writes (by decide))
      (.cons (restores_text.writes_omittable rfl) .nil)) fun v => ?_
  simp [toValue, ofValue]

theorem OcmSpec.restores : Restores schema ofValue toValue := by
  refine restores_record (by decide)
    (.cons (restores_text.writes (by decide))
      (.cons (restores_unsigned32.writes (by decide))
        (.cons (restores_text.writes (by decide)) .nil))) fun v => ?_
  simp [toValue, ofValue]

theorem ForwarderSpec.restores : Restores schema ofValue toValue := by
  refine restores_record (by decide)
    (.cons (CollectionReference.restores.writes_omittable rfl)
      (.cons (restores_text.writes (by decide))
        (.cons (OcmSpec.restores.writes (by decide))
          (.cons (BackendSpec.restores.writes (by decide))
            (.cons (restores_flag.writes (by decide)) .nil))))) fun v => ?_
  simp [toValue, ofValue]

theorem CollectionSpec.restores : Restores schema ofValue toValue := by
  refine restores_record (by decide)
    (.cons (Provider.restores.writes (by decide))
      (.cons (restores_text.writes (by decide))
        (.cons (BackendSpec.restores.writes (by decide)) .nil))) fun v => ?_
  simp [toValue, ofValue]

theorem PhaseCondition.restores : Restores schema ofValue toValue := by
  refine restores_record (by decide)
    (.cons (restores_text.writes (by decide))
      (.cons (restores_text.writes (by decide))
        (.cons (restores_text.writes (by decide))
          (.cons (restores_text.writes_nullable rfl) .nil)))) fun v => ?_
  simp [toValue, ofValue]

theorem ChildResource.restores : Restores schema ofValue toValue := by
  refine restores_record (by decide)
    (.cons (restores_text.writes (by decide))
      (.cons (restores_text.writes (by decide))
        (.cons (restores_text.writes (by decide))
          (.cons (restores_text.writes (by decide))
            (.cons (restores_text.writes (by decide))
              (.cons (restores_text.writes (by decide))
                (.cons (restores_text.writes (by decide)) .nil))))))) fun v => ?_
  simp [toValue, ofValue]

theorem WorkloadStatus.restores : Restores schema ofValue toValue := by
  refine restores_record (by decide)
    (.cons (restores_flag.writes (by decide))
      (.cons (restores_flag.writes (by decide))
        (.cons (PhaseCondition.restores.list.writes (by decide))
          (.cons (ChildResource.restores.list.writes (by decide)) .nil)))) fun v => ?_
  simp [toValue, ofValue]

theorem ObjectMeta.restores : Restores schema ofValue toValue := by
  refine restores_record (by decide)
    (.cons (restores_text.dict.writes_omittable rfl)
      (.cons (restores_text.list.writes_omittable rfl)
        (.cons (restores_text.writes_omittable rfl)
          (.cons ((restores_integer _).writes_omittable rfl)
            (.cons (restores_text.dict.writes_omittable rfl)
              (.cons (restores_text.writes_omittable rfl)
                (.cons (restores_text.writes_omittable rfl)
                  (.cons (restores_text.writes_omittable rfl)
                    (.cons (restores_text.writes_omittable rfl) .nil))))))))) fun v => ?_
  simp [toValue, ofValue]

/-! ## Objects -/

/-- A kind whose specifications are written as they were read. -/
class LawfulKind (σ : Type) [WorkloadKind σ] : Prop where
  wellFormed : (WorkloadKind.schema σ).isWellFormed
  restores : Restores (WorkloadKind.schema σ) (WorkloadKind.ofValue : Value → σ)
    WorkloadKind.toValue

instance : LawfulKind ForwarderSpec where
  wellFormed := by decide
  restores := ForwarderSpec.restores

instance : LawfulKind CollectionSpec where
  wellFormed := by decide
  restores := CollectionSpec.restores

namespace Workload

variable {σ : Type} [WorkloadKind σ]

/-- Whether a value is an object that loads as a workload. -/
def LoadsAs (v : Value) (r : Workload σ) : Prop :=
  ∃ o, ApiObject.ofValue? v = some o ∧ o.parse σ = .ok r

/-- The object as a value, its kind and version aside. -/
def body (r : Workload σ) : Value :=
  .map <|
    [("metadata", r.metadata.toValue), ("spec", WorkloadKind.toValue r.spec)] ++
    Value.ofMember "status" WorkloadStatus.toValue r.status

/-- The members of an object of the kind, its kind and version before the others. -/
def written (σ : Type) [WorkloadKind σ] (ms : Members) : Members :=
  ("apiVersion", .str apiVersion) :: ("kind", .str (WorkloadKind.kind σ)) :: ms

theorem toValue_eq_of_body_eq {r : Workload σ} {ms : Members} (h : r.body = .map ms) :
    r.toValue = .map (written σ ms) := by
  cases h
  rfl

/-- The members of an object of the kind, its kind and version aside. -/
abbrev members (σ : Type) [WorkloadKind σ] : List (MemberInfo × Schema) :=
  [ (⟨"metadata", .required, {}⟩, ObjectMeta.schema),
    (⟨"spec", .required, {}⟩, WorkloadKind.schema σ),
    (⟨"status", .omittable, {}⟩, WorkloadStatus.schema) ]

theorem nodup_names : (names (members σ)).Nodup := by
  show ["metadata", "spec", "status"].Nodup
  decide

section

variable [LawfulKind σ]

theorem isWellFormed_schema : (schema σ).isWellFormed := by
  have hmeta : ObjectMeta.schema.isWellFormed := by decide
  have hspec : (WorkloadKind.schema σ).isWellFormed := LawfulKind.wellFormed
  have hstatus : WorkloadStatus.schema.isWellFormed := by decide
  refine isWellFormed_record.mpr ⟨nodup_names, areWellFormed_iff.mpr ?_⟩
  simp [defaultIsCanonical, hmeta, hspec, hstatus]

theorem restores : Restores (schema σ) (ofValue : Value → Workload σ) body := by
  refine restores_record nodup_names
    (.cons (ObjectMeta.restores.writes (by decide))
      (.cons (LawfulKind.restores.writes (by simp))
        (.cons (WorkloadStatus.restores.writes_omittable rfl) .nil))) fun v => ?_
  simp [body, ofValue]

end

/-! ## Loading what was written -/

/-- The members of an object other than its envelope and its metadata. -/
def content (ns : Members) : Members := ns.filter fun m => m.1 ∉ ["apiVersion", "kind", "metadata"]

theorem get?_content (ns : Members) (key : String) :
    (content ns).get? key =
      if key ∉ ["apiVersion", "kind", "metadata"] then ns.get? key else none :=
  Members.get?_filter_key (fun key => key ∉ ["apiVersion", "kind", "metadata"]) ns key

theorem nodup_keys_rebuilt {ns : Members} (h : ns.keys.Nodup) (v : Value) :
    ((content ns).put "metadata" v).keys.Nodup := by
  have hmeta : "metadata" ∉ (content ns).keys :=
    Members.get?_eq_none_iff.mp (by rw [get?_content, if_neg (by decide)])
  exact Members.nodup_keys_put (h.sublist (List.filter_sublist.map _)) hmeta v

section

variable {ms : Members} (h : areCanonical (members σ) ms)

include h

theorem get?_metadata :
    ∃ v, ms.get? "metadata" = some v ∧ ObjectMeta.schema.isCanonical v := by
  have hpiece := (pieces_of_areCanonical nodup_names h).1 _ List.mem_cons_self
  rcases hpiece.get?_cases with hv | ⟨_, hp⟩ | ⟨_, hp⟩
  · exact hv
  · cases hp
  · cases hp

theorem get?_envelope : ∀ key ∈ ["apiVersion", "kind"], ms.get? key = none := by
  intro key hkey
  refine Members.get?_eq_none_iff.mpr fun hmem => ?_
  have hname : key ∈ ["metadata", "spec", "status"] := keys_subset_of_areCanonical h hmem
  simp at hkey hname
  rcases hkey with rfl | rfl <;> simp at hname

theorem nodup_keys_written : (written σ ms).keys.Nodup := by
  have hversion := Members.get?_eq_none_iff.mp (get?_envelope h "apiVersion" (by decide))
  have hkind := Members.get?_eq_none_iff.mp (get?_envelope h "kind" (by decide))
  have hms := nodup_keys_of_areCanonical nodup_names h
  simp [written, hversion, hkind, hms]

/-- The members that remain when the envelope and the metadata are taken out of an object, and the
metadata are put back. -/
theorem get?_rebuilt {f : Value → Value} {ns : Members} {v : Value}
    (hv : ms.get? "metadata" = some v)
    (hget : ∀ key, ns.get? key = ((written σ ms).get? key).map f) (key : String) :
    ((content ns).put "metadata" v).get? key =
      (ms.get? key).map (if key = "metadata" then id else f) := by
  by_cases hmeta : key = "metadata"
  · subst hmeta
    rw [Members.get?_put_self, hv, if_pos rfl]
    rfl
  · rw [Members.get?_put_of_ne _ _ (Ne.symm hmeta), if_neg hmeta, get?_content]
    by_cases henv : key ∈ ["apiVersion", "kind"]
    · have hmem : key ∈ ["apiVersion", "kind", "metadata"] := by simp at henv ⊢; tauto
      rw [if_neg (not_not_intro hmem), get?_envelope h key henv]
      rfl
    · obtain ⟨hversion, hkind⟩ : key ≠ "apiVersion" ∧ key ≠ "kind" := by simpa using henv
      rw [if_pos (by simp [hversion, hkind, hmeta]), hget]
      simp [written, Ne.symm hversion, Ne.symm hkind]

end

section

variable {f : Value → Value} (hf : Value.Arranges f) {ms ns : Members}
  (hget : ∀ key, ns.get? key = ((written σ ms).get? key).map f)

include hf hget

theorem envelope?_of_get? : ApiObject.envelope? ns = some (Envelope.ofKind σ) := by
  have hleaf : ∀ s, f (.str s) = .str s := fun s => hf.leaf (.str s) rfl rfl
  have hversion : ns.get? "apiVersion" = some (.str apiVersion) := by
    rw [hget]; simp [written, hleaf]
  have hkind : ns.get? "kind" = some (.str (WorkloadKind.kind σ)) := by
    rw [hget]; simp [written, hleaf]
  unfold ApiObject.envelope?
  rw [hversion, hkind]
  rfl

theorem metadata?_of_get? {v : Value} (hv : ms.get? "metadata" = some v)
    (hcanonical : ObjectMeta.schema.isCanonical v) :
    ApiObject.metadata? ns = some (.ofValue v) := by
  have hread : ObjectMeta.schema.ofValue (f v) = .ok v :=
    ofValue_arrange hf (by decide) hcanonical
  have hfv : ns.get? "metadata" = some (f v) := by rw [hget]; simp [written, hv]
  unfold ApiObject.metadata?
  simp only [hfv, hread]
  rfl

/-- The metadata are put back as they were read, and the other members as they were written. -/
theorem ofValue_rebuilt [LawfulKind σ] (h : areCanonical (members σ) ms) (hns : ns.keys.Nodup)
    {v : Value} (hv : ms.get? "metadata" = some v) :
    (schema σ).ofValue (.map ((content ns).put "metadata" v)) = .ok (.map ms) := by
  refine ofValue_record nodup_names h (nodup_keys_rebuilt hns v) (get?_rebuilt h hv hget)
    (fun key => ?_) fun m hm w hw => ?_
  · split_ifs
    · rfl
    · exact hf.leaf .null rfl rfl
  · have hwell : m.2.isWellFormed :=
      (areWellFormed_iff.mp (isWellFormed_record.mp isWellFormed_schema).2 m hm).2
    split_ifs
    · exact ofValue_of_isCanonical hwell hw
    · exact ofValue_arrange hf hwell hw

end

/-- **Writing is undone by loading.** What is written loads as what its body reads as, however its
members are arranged. -/
theorem loadsAs_written [LawfulKind σ] {f : Value → Value} (hf : Value.Arranges f) {ms : Members}
    (h : areCanonical (members σ) ms) :
    LoadsAs (f (.map (written σ ms))) (ofValue (.map ms) : Workload σ) := by
  obtain ⟨ns, hns, hkeys, hget⟩ := hf.map _ (nodup_keys_written h)
  obtain ⟨v, hv, hcanonical⟩ := get?_metadata h
  refine ⟨⟨some (.ofKind σ), .ofValue v, content ns⟩, ?_, ?_⟩
  · rw [hns, ApiObject.ofValue?, metadata?_of_get? hf hget hv hcanonical,
      envelope?_of_get? hf hget]
    rfl
  · unfold ApiObject.parse ApiObject.toValue
    rw [ObjectMeta.restores v hcanonical, ofValue_rebuilt hf hget h hkeys hv]
    exact if_pos rfl

/-- What loads as a workload was written as the body of the workload, whatever it was. -/
theorem LoadsAs.written_eq [LawfulKind σ] {v : Value} {r : Workload σ} (h : LoadsAs v r) :
    ∃ ms, areCanonical (members σ) ms ∧ r = ofValue (.map ms) ∧
      r.toValue = .map (written σ ms) := by
  obtain ⟨o, _, hparse⟩ := h
  simp only [ApiObject.parse] at hparse
  split_ifs at hparse
  cases hread : (schema σ).ofValue o.toValue with
  | error m => rw [hread] at hparse; cases hparse
  | ok w =>
    rw [hread] at hparse
    cases hparse
    have hcanonical := isCanonical_of_ofValue isWellFormed_schema hread
    obtain ⟨ms, rfl, hms⟩ := isCanonical_record.mp hcanonical
    exact ⟨ms, hms, rfl, toValue_eq_of_body_eq (restores _ hcanonical)⟩

/-- Whether every workload of a kind that was loaded at all is written as an object that loads as
the same workload, as it stands and with the members of its maps sorted by key. -/
def RoundTrips (σ : Type) [WorkloadKind σ] : Prop :=
  ∀ (v : Value) (r : Workload σ), LoadsAs v r →
    LoadsAs r.toValue r ∧ LoadsAs r.toValue.sorted r

theorem roundTrips_of_lawfulKind (σ : Type) [WorkloadKind σ] [LawfulKind σ] : RoundTrips σ := by
  intro v r h
  obtain ⟨ms, hms, rfl, hwritten⟩ := h.written_eq
  rw [hwritten]
  exact ⟨loadsAs_written Value.arranges_id hms, loadsAs_written Value.arranges_sorted hms⟩

/-- **Loading is idempotent.** Objects of both kinds are written as they were understood: metadata,
specification with its defaults, and status all survive. -/
theorem roundTrips : RoundTrips ForwarderSpec ∧ RoundTrips CollectionSpec :=
  ⟨roundTrips_of_lawfulKind ForwarderSpec, roundTrips_of_lawfulKind CollectionSpec⟩

/-- A forwarder whose records are given as lists, with a backend that is not served and a condition
without a time. -/
theorem roundTrips_listed :
    ∃ r : Forwarder,
      LoadsAs
        (.map
          [ ("apiVersion", .str "v9"), ("kind", .str "OCMLogForwarder"), ("other", .int 1),
            ("metadata", .map [("labels", .map [("b", .str "2"), ("a", .str "1")])]),
            ("spec", .list [.null, .str "v2", .list [.str "id"], .list [.str "other", .list []]]),
            ("status", .map [("conditions", .list [.list [.str "Apply", .str "Done"]])]) ]) r ∧
        r.spec.backend.backendType = .unsupported "other" ∧ LoadsAs r.toValue r ∧
          LoadsAs r.toValue.sorted r := by
  let r : Forwarder :=
    { metadata := { labels := some [("a", "1"), ("b", "2")] }
      spec :=
        { forwarderVersion := "v2", ocm := { clusterId := "id" }
          backend := { backendType := .unsupported "other" } }
      status := some { conditions := [{ phase := "Apply", state := "Done" }] } }
  refine ⟨r, ?loads, rfl, roundTrips.1 _ r ?loads⟩
  exact ⟨_, rfl, rfl⟩

end Workload

end LogForwarder
