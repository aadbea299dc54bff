import LogForwarder.Proofs.Generation.ForwarderPod
import LogForwarder.Proofs.Generation.Mutation
import LogForwarder.Proofs.Number.Numeral
import LogForwarder.Proofs.Schema.Nested
import LogForwarder.Proofs.Value.Record

/-!
# Deployments that are stored

What a deployment is stored as, for any draft that is not refused.

1. It is stored as its draft reads, but for the environments of its containers, whose entries have
   texts for values (`Draft.Stores`, from `StoresContainer` and `StoresEntry`). So a value that can
   be no text cannot be stored (`Draft.deployment_stores`).
2. In what is stored there is nothing left to coerce (`Draft.coerced_of_isCanonical`), and so it is
   stored again as it is (`Draft.deployment_idempotent`).
-/

namespace LogForwarder

open Mutator Schema

/-! ## Texts that may be left out -/

/-- An optional text is read as the text that is given. -/
theorem Schema.asOption_of_reads {info : MemberInfo} (hinfo : info.presence = .omittable)
    {o out : Option Value} (h : Reads (info, .text) o out) :
    (out.getD .null).asOption Value.asText = o.bind Value.text? := by
  have hsettled : info.presence.settled? = some none := by
    rw [hinfo]
    rfl
  cases h with
  | given hw =>
    rename_i v w
    cases v <;> cases hw
    rfl
  | null _ h =>
    cases hsettled.symm.trans h
    rfl
  | absent h =>
    cases hsettled.symm.trans h
    rfl

/-- The name and the namespace of metadata are read as the texts that are given. -/
theorem ObjectMeta.names_of_ofValue {v w : Value} (h : schema.ofValue v = .ok w)
    (hmap : ∃ ms, v = .map ms) :
    (ofValue w).name = v.textAt? ["name"] ∧
      (ofValue w).objectNamespace = v.textAt? ["namespace"] := by
  obtain ⟨ms, rfl⟩ := hmap
  obtain ⟨out, rfl, -, hreads⟩ := reads_of_ofValue (by decide) h
  have hmember : ∀ info : MemberInfo, info.presence = .omittable →
      Reads (info, .text) (Members.get? ms info.name) (out.get? info.name) →
        ((Value.map out).member info.name).asOption Value.asText =
          (Value.map ms).textAt? [info.name] := by
    intro info hinfo hread
    rw [member_map, Value.textAt?, Value.get?_singleton]
    exact Schema.asOption_of_reads hinfo hread
  exact ⟨hmember ⟨"name", .omittable, {}⟩ rfl (hreads (_, .text) (by simp)),
    hmember ⟨"namespace", .omittable, {}⟩ rfl (hreads (_, .text) (by simp))⟩

namespace Deployment

/-! ## Places in a deployment -/

/-- The members of all records of a deployment stand in the order of their names. -/
theorem isOrdered_schema : schema.isOrdered := by decide +kernel

theorem at?_containers : schema.at? containersPath = some (.list container) := rfl

theorem at?_env : container.at? ["env"] = some (.list environmentEntry) := rfl

theorem ofValue_eq_ok_iff {v : Value} {t : Deployment} :
    ofValue v = .ok t ↔ schema.ofValue v = .ok t.value := by
  unfold ofValue
  rw [map_eq_ok]
  constructor
  · rintro ⟨w, hw, rfl⟩
    exact hw
  · intro h
    exact ⟨t.value, h, rfl⟩

end Deployment

namespace Draft

/-! ## Entries -/

/-- How the value of an entry is stored. -/
inductive StoresText : Option Value → Option Value → Prop
  | absent : StoresText none none
  | null : StoresText (some .null) none
  | text (s : String) : StoresText (some (.str s)) (some (.str s))
  | integer (n : Int) : StoresText (some (.int n)) (some (.str (toString n)))
  | flag (b : Bool) : StoresText (some (.bool b)) (some (.str (toString b)))

/-- How an entry of an environment is stored. -/
structure StoresEntry (e e' : Value) : Prop where
  /-- It is read with its direct members coerced. -/
  reads : Deployment.environmentEntry.ofValue (e.mapMembers Environment.coerce) = .ok e'
  value : StoresText (e.get? ["value"]) (e'.get? ["value"])
  /-- What the cluster is to take the value from is read as it stands. -/
  source : Reads (Deployment.optional "valueFrom" Deployment.environmentSource)
    (e.get? ["valueFrom"]) (e'.get? ["valueFrom"])

/-- Only texts, integers and flags are read as the value of an entry. -/
theorem storesText_of_reads {o out : Option Value}
    (h : Reads (Deployment.optional "value" .text) (o.map Environment.coerce) out) :
    StoresText o out := by
  cases o with
  | none =>
    cases reads_none_iff.mp h
    exact .absent
  | some v =>
    by_cases hnull : Environment.coerce v = .null
    · cases v <;> cases hnull
      obtain _ | ⟨-, hsettled⟩ := h
      · exact absurd ‹_› (ofValue_null_ne_ok _ _)
      · cases hsettled
        exact .null
    · obtain ⟨w, hw, rfl⟩ := (reads_some_iff hnull).mp h
      cases v with
      | str s =>
        cases hw
        exact .text s
      | int n =>
        cases hw
        rw [Numeral.decimal_eq_toString]
        exact .integer n
      | bool b =>
        cases hw
        cases b <;> exact .flag _
      | _ => cases hw

/-- Where the value is to be taken from is not coerced: texts are not read there. -/
theorem reads_of_reads_coerce {o out : Option Value}
    (h : Reads (Deployment.optional "valueFrom" Deployment.environmentSource)
      (o.map Environment.coerce) out) :
    Reads (Deployment.optional "valueFrom" Deployment.environmentSource) o out := by
  have htext : ∀ s : String, ¬Reads (Deployment.optional "valueFrom" Deployment.environmentSource)
      (some (.str s)) out := by
    intro s hs
    have hne : Value.str s ≠ .null := nofun
    obtain ⟨w, hw, -⟩ := (reads_some_iff hne).mp hs
    cases hw
  cases o with
  | none => exact h
  | some v =>
    cases v with
    | int n => exact absurd h (htext _)
    | bool b => exact absurd h (htext _)
    | _ => exact h

theorem storesEntry_of_ofValue {e e' : Value} (hmap : ∃ ms, e = .map ms)
    (h : Deployment.environmentEntry.ofValue (e.mapMembers Environment.coerce) = .ok e') :
    StoresEntry e e' := by
  obtain ⟨ms, rfl⟩ := hmap
  obtain ⟨out, rfl, -, hreads⟩ := reads_of_ofValue (by decide) h
  -- Whatever member is looked at, it is given coerced.
  have hmember : ∀ m ∈ [Deployment.needed "name", Deployment.optional "value" .text,
      Deployment.optional "valueFrom" Deployment.environmentSource],
      Reads m (((Value.map ms).get? [m.1.name]).map Environment.coerce)
        ((Value.map out).get? [m.1.name]) := by
    intro m hm
    rw [Value.get?_singleton, Value.get?_singleton, ← Members.get?_map_values]
    exact hreads m hm
  exact ⟨h, storesText_of_reads (hmember _ (by simp)), reads_of_reads_coerce (hmember _ (by simp))⟩

/-! ## Containers -/

/-- How a container is stored. -/
structure StoresContainer (c c' : Value) : Prop where
  /-- All entries of its environment are there, in their order. -/
  entries : ∃ es es', c.itemsAt? ["env"] = some es ∧ c'.itemsAt? ["env"] = some es' ∧
    List.Forall₂ StoresEntry es es'
  /-- Whatever else it has is read as it stands. -/
  rest : ∃ b b', c.set? ["env"] (.list []) = some b ∧ c'.set? ["env"] (.list []) = some b' ∧
    Deployment.container.ofValue b = .ok b'

theorem storesContainer_of_ofValue {c c' : Value} (henv : HasEnvironment c)
    (h : Deployment.container.ofValue (coercedContainer c) = .ok c') : StoresContainer c c' := by
  obtain ⟨es, hes, hmaps⟩ := henv
  obtain ⟨es', hread⟩ := readsItems_of_ofValue (by decide) Deployment.at?_env hes h
  have hentries : List.Forall₂ StoresEntry es es' :=
    ((List.forall₂_and_left _ _).mpr ⟨hmaps, hread.items⟩).imp fun _ _ ⟨hmap, he⟩ =>
      storesEntry_of_ofValue hmap he
  exact ⟨⟨es, es', hes, hread.after, hentries⟩, hread.rest⟩

/-! ## Deployments -/

/-- How a deployment is stored. -/
structure Stores (d : Draft) (t : Deployment) : Prop where
  /-- It is read with the direct members of the entries of its environments coerced. -/
  reads : Deployment.ofValue (coerced d) = .ok t
  /-- All containers are there, in their order. -/
  containers : ∃ cs cs', d.itemsAt? containersPath = some cs ∧
    t.value.itemsAt? containersPath = some cs' ∧ List.Forall₂ StoresContainer cs cs'
  /-- Whatever else it has is read as it stands. -/
  rest : ∃ b b', d.set? containersPath (.list []) = some b ∧
    t.value.set? containersPath (.list []) = some b' ∧ Deployment.ofValue b = .ok ⟨b'⟩
  /-- It is called as the draft is, if the draft gives a kind and a name. -/
  identity : ∀ kind name, d.textAt? ["kind"] = some kind →
    d.textAt? ["metadata", "name"] = some name → t.identity = identity d

/-- A deployment is called as the draft that it is read from, if that gives a kind and a name. -/
theorem identity_eq_of_ofValue {d : Draft} {t : Deployment} {kind name : String}
    (h : Deployment.schema.ofValue d = .ok t.value) (hkind : d.textAt? ["kind"] = some kind)
    (hname : d.textAt? ["metadata", "name"] = some name) : t.identity = identity d := by
  obtain ⟨ms, u, rfl, hmetadata, hgiven⟩ :=
    Value.get?_cons_eq_some (Value.textAt?_eq_some_iff.mp hname)
  obtain ⟨ns, _, rfl, -, -⟩ := Value.get?_cons_eq_some hgiven
  have hget : (Value.map ms).get? ["metadata"] = some (.map ns) := by
    rw [Value.get?_singleton, hmetadata]
  have hat : Deployment.schema.at? ["metadata"] = some ObjectMeta.schema := rfl
  obtain ⟨z, hz, hstored⟩ := ofValue_get? Deployment.isOrdered_schema hat h hget nofun
  obtain ⟨hnameRead, hnamespaceRead⟩ := ObjectMeta.names_of_ofValue hz ⟨ns, rfl⟩
  have htext : ∀ key, (Value.map ms).textAt? ["metadata", key] = (Value.map ns).textAt? [key] := by
    intro key
    rw [Value.textAt?, Value.get?_map_cons, hmetadata]
    rfl
  have hkindOnly : kind = "Deployment" := by
    have hatKind : Deployment.schema.at? ["kind"] = some (.constant "Deployment") := rfl
    obtain ⟨w, hw, -⟩ :=
      ofValue_get? Deployment.isOrdered_schema hatKind h (Value.textAt?_eq_some_iff.mp hkind) nofun
    rw [Schema.ofValue] at hw
    split_ifs at hw with hsame
    exact hsame
  have hmetadataRead : t.metadata = .ofValue z := by
    unfold Deployment.metadata Value.member
    rw [hstored]
    rfl
  unfold Deployment.identity identity ObjectMeta.anyName Draft.name Draft.kind objectNamespace?
  rw [hmetadataRead, hnameRead, hnamespaceRead, ← htext, ← htext, hname, hkind, hkindOnly]
  rfl

theorem textAt?_coerced (d : Draft) {key : String} (hkey : "spec" ≠ key) (rest : List String) :
    (coerced d).textAt? (key :: rest) = d.textAt? (key :: rest) :=
  congrArg (·.bind Value.text?) (Value.get?_change_of_ne hkey)

/-- Coercion does not change what a deployment is called. -/
theorem identity_coerced (d : Draft) : identity (coerced d) = identity d := by
  unfold identity objectNamespace? name kind
  simp only [textAt?_coerced d (by decide : "spec" ≠ "metadata"),
    textAt?_coerced d (by decide : "spec" ≠ "kind")]

theorem stores_of_ofValue {d : Draft} {t : Deployment} (henvironments : HasEnvironments d)
    (h : Deployment.ofValue (coerced d) = .ok t) : Stores d t := by
  obtain ⟨cs, hcs, hall⟩ := henvironments
  have hread := Deployment.ofValue_eq_ok_iff.mp h
  obtain ⟨cs', hitems⟩ :=
    readsItems_of_ofValue Deployment.isOrdered_schema Deployment.at?_containers hcs hread
  have hcontainers : List.Forall₂ StoresContainer cs cs' :=
    ((List.forall₂_and_left _ _).mpr ⟨hall, hitems.items⟩).imp fun _ _ ⟨henv, hc⟩ =>
      storesContainer_of_ofValue henv hc
  obtain ⟨b, b', hb, hb', hrest⟩ := hitems.rest
  refine ⟨h, ⟨cs, cs', hcs, hitems.after, hcontainers⟩,
    ⟨b, b', hb, hb', Deployment.ofValue_eq_ok_iff.mpr hrest⟩, fun kind name hkind hname => ?_⟩
  rw [← identity_coerced d]
  rw [← textAt?_coerced d (by decide)] at hkind hname
  exact identity_eq_of_ofValue hread hkind hname

/-! ## The mutator -/

/-- Whether the value of some entry of a deployment can be no text. -/
def HasUnfitValue (d : Draft) : Prop :=
  ∃ cs, d.itemsAt? containersPath = some cs ∧ ∃ c ∈ cs, ∃ es, c.itemsAt? ["env"] = some es ∧
    ∃ e ∈ es, (∃ x, e.get? ["value"] = some (.float x)) ∨
      (∃ xs, e.get? ["value"] = some (.list xs)) ∨ ∃ ms, e.get? ["value"] = some (.map ms)

theorem Stores.not_hasUnfitValue {d : Draft} {t : Deployment} (h : Stores d t) :
    ¬HasUnfitValue d := by
  rintro ⟨_, hcs, c, hc, _, hes, e, he, hunfit⟩
  obtain ⟨cs, cs', hcs', -, hcontainers⟩ := h.containers
  cases hcs.symm.trans hcs'
  obtain ⟨c', hc'⟩ := exists_of_forall₂ hcontainers c hc
  obtain ⟨es, es', hes', -, hentries⟩ := hc'.entries
  cases hes.symm.trans hes'
  obtain ⟨e', he'⟩ := exists_of_forall₂ hentries e he
  have hvalue := he'.value
  rcases hunfit with ⟨x, hx⟩ | ⟨xs, hx⟩ | ⟨ms, hx⟩ <;>
  · rw [hx] at hvalue
    cases hvalue

/-- **Deployments are stored as they are read.** A deployment that is stored comes out typed, as the
reading of its draft with nothing coerced but the direct members of the entries of its
environments. Where a value can be no text the deployment does not fit. -/
theorem deployment_stores (d : Draft) (request : Request) (m : Metrics) :
    (∀ resource, ((Mutator.deployment d (some request)).run.run m).1 = .ok resource →
        ∃ t, resource = .typed t ∧ Stores d t) ∧
      (HasEnvironments d → HasUnfitValue d → ∃ mismatch,
        ((Mutator.deployment d (some request)).run.run m).1 =
          .error (.unfit "Deployment" (identity d) mismatch)) := by
  rw [run_deployment]
  constructor
  · intro resource h
    obtain ⟨t, ht, rfl⟩ := map_eq_ok.mp h
    obtain ⟨henvironments, hread⟩ := convert_eq_ok_iff.mp ht
    exact ⟨t, rfl, stores_of_ofValue henvironments hread⟩
  · intro henvironments hunfit
    rw [convert_of_hasEnvironments henvironments]
    cases hread : Deployment.ofValue (coerced d) with
    | ok t => exact absurd hunfit (stores_of_ofValue henvironments hread).not_hasUnfitValue
    | error mismatch => exact ⟨mismatch, rfl⟩

/-- A deployment of two containers, one with entries of each form. The value of one is given. -/
def sample (v : Value) : Draft :=
  .map
    [ ("kind", .str "Deployment"),
      ("metadata", .map [("name", .str "sample")]),
      ("spec", .map [("template", .map [("spec", .map
        [ ("containers", .list
            [ .map
                [ ("env", .list
                    [ .map [("name", .str "DEBUG"), ("value", v)],
                      .map [("name", .str "MINUTES"), ("value", .int (-5))],
                      .map [("name", .str "NOTHING"), ("value", .null)],
                      .map
                        [ ("name", .str "TOKEN"),
                          ("valueFrom", .map
                            [("secretKeyRef", .map [("optional", .bool true)])]) ] ]),
                  ("name", .str "forwarder") ],
              .map [("env", .list []), ("name", .str "sidecar")] ]),
          ("initContainers", .list [.map [("env", .list [])]]) ])])]) ]

/-- The sample is stored with a flag for the value, and does not fit with a list. -/
theorem deployment_stores_sample :
    (∃ t, ((Mutator.deployment (sample (.bool true)) (some ⟨"sample", none⟩)).run.run {}).1 =
        .ok (.typed t) ∧ Stores (sample (.bool true)) t) ∧
      ∃ mismatch, ((Mutator.deployment (sample (.list [])) (some ⟨"sample", none⟩)).run.run {}).1 =
        .error (.unfit "Deployment" ⟨"", "sample", "Deployment"⟩ mismatch) := by
  constructor
  · obtain ⟨resource, hrun⟩ : ∃ resource,
        ((Mutator.deployment (sample (.bool true)) (some ⟨"sample", none⟩)).run.run {}).1 =
          .ok resource := ⟨_, rfl⟩
    obtain ⟨t, rfl, hstores⟩ := (deployment_stores _ _ _).1 resource hrun
    exact ⟨t, hrun, hstores⟩
  · refine (deployment_stores (sample (.list [])) ⟨"sample", none⟩ {}).2 ?_ ?_
    · refine ⟨_, rfl, ?_⟩
      simp [HasEnvironment, Value.itemsAt?, Value.items?]
    · refine ⟨_, rfl, _, .head _, _, rfl, _, .head _, .inr (.inl ⟨[], rfl⟩)⟩

/-! ## Stored deployments -/

theorem mapMembers_coerce_of_isCanonical {e : Value}
    (h : Deployment.environmentEntry.isCanonical e) : e.mapMembers Environment.coerce = e := by
  obtain ⟨ms, rfl, hms⟩ := isCanonical_record.mp h
  have hsame : ∀ n ∈ ms, (n.1, Environment.coerce n.2) = n := by
    intro n hn
    refine Prod.ext rfl ?_
    obtain ⟨m, hm, -, hv | hnull⟩ := mem_of_areCanonical (by decide) hms hn
    · -- The members of an entry are texts, and a record.
      have hschema : m.2 = .text ∨ m.2 = Deployment.environmentSource := by
        rcases hm with _ | ⟨_, _ | ⟨_, _ | ⟨_, ⟨⟩⟩⟩⟩
        · exact .inl rfl
        · exact .inl rfl
        · exact .inr rfl
      rcases hschema with htext | hsource
      · rw [htext] at hv
        cases hn2 : n.2 <;> rw [hn2] at hv <;> first | rfl | cases hv
      · rw [hsource] at hv
        obtain ⟨ns, hns, -⟩ := isCanonical_record.mp hv
        rw [hns]
        rfl
    · rw [hnull]
      rfl
  exact congrArg Value.map ((List.map_congr_left hsame).trans (List.map_id' ms))

theorem coercedContainer_of_isCanonical {c : Value} (h : Deployment.container.isCanonical c) :
    coercedContainer c = c :=
  change_eq_self_of_isCanonical (by decide) (by decide) (by decide) Deployment.at?_env
    (fun _ => mapMembers_coerce_of_isCanonical) h

/-- What was stored has nothing that is to be coerced. -/
theorem coerced_of_isCanonical {d : Draft} (h : Deployment.schema.isCanonical d) : coerced d = d :=
  change_eq_self_of_isCanonical ForwarderPod.isWellFormed_schema Deployment.isOrdered_schema
    (by decide) Deployment.at?_containers (fun _ => coercedContainer_of_isCanonical) h

theorem hasEnvironments_of_stores {d : Draft} {t : Deployment} (h : Stores d t) :
    HasEnvironments t.value := by
  obtain ⟨cs, cs', -, hcs', hcontainers⟩ := h.containers
  refine ⟨cs', hcs', fun c' hc' => ?_⟩
  obtain ⟨c, hc⟩ := exists_of_forall₂ hcontainers.flip c' hc'
  obtain ⟨es, es', -, hes', hentries⟩ := hc.entries
  refine ⟨es', hes', fun e' he' => ?_⟩
  obtain ⟨e, he⟩ := exists_of_forall₂ hentries.flip e' he'
  obtain ⟨ms, hms, -⟩ := isCanonical_record.mp (isCanonical_of_ofValue (by decide) he.reads)
  exact ⟨ms, hms⟩

/-- **Storing is idempotent.** What is stored, with its members in the order of their keys as they
are, is stored again as it is. -/
theorem deployment_idempotent {d : Draft} {t : Deployment} {request : Request} {m : Metrics}
    (h : ((Mutator.deployment d (some request)).run.run m).1 = .ok (.typed t))
    (again : Request) :
    t.value.sorted = t.value ∧ (Mutator.deployment t.value (some again)).Gives (.typed t) := by
  rw [run_deployment] at h
  obtain ⟨_, hconvert, ⟨⟩⟩ := map_eq_ok.mp h
  obtain ⟨henvironments, hread⟩ := convert_eq_ok_iff.mp hconvert
  have hcanonical : Deployment.schema.isCanonical t.value :=
    isCanonical_of_ofValue ForwarderPod.isWellFormed_schema (Deployment.ofValue_eq_ok_iff.mp hread)
  refine ⟨?_, fun m' => ?_⟩
  · exact sorted_of_isCanonical ForwarderPod.isWellFormed_schema Deployment.isOrdered_schema
      hcanonical
  have hagain : convert t.value = .ok t := by
    refine convert_eq_ok_iff.mpr
      ⟨hasEnvironments_of_stores (stores_of_ofValue henvironments hread), ?_⟩
    rw [coerced_of_isCanonical hcanonical, Deployment.ofValue_eq_ok_iff]
    exact ofValue_of_isCanonical ForwarderPod.isWellFormed_schema hcanonical
  rw [run_deployment, hagain]
  rfl

/-- The sample is stored, and stored again on behalf of another request. -/
theorem deployment_idempotent_sample :
    ∃ t, ((Mutator.deployment (sample (.bool true)) (some ⟨"sample", none⟩)).run.run {}).1 =
        .ok (.typed t) ∧ t.value ≠ sample (.bool true) ∧ t.value.sorted = t.value ∧
      (Mutator.deployment t.value (some ⟨"other", some "elsewhere"⟩)).Gives (.typed t) := by
  obtain ⟨t, hrun, hne⟩ : ∃ t,
      ((Mutator.deployment (sample (.bool true)) (some ⟨"sample", none⟩)).run.run {}).1 =
        .ok (.typed t) ∧ t.value ≠ sample (.bool true) := ⟨_, rfl, by decide⟩
  exact ⟨t, hrun, hne, deployment_idempotent hrun _⟩

end Draft

end LogForwarder
