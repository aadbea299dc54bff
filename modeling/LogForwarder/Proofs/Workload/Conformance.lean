import LogForwarder.Program.Run
import LogForwarder.Proofs.Schema.Exactness
import LogForwarder.Proofs.Workload.Requirements

/-!
# What is accepted conforms

Validation and the definitions of the kinds say separately what a specification may hold.

1. What validation asks of a backend and of the settings for polling is all that their members are
   annotated with (`BackendSpec.obeys`, `OcmSpec.obeys`), so the specification of a workload that is
   accepted obeys its schema (`Forwarder.obeys`, `Collection.obeys`).
2. It therefore conforms to the schema in every version of the printed definition of its kind
   (`definitions_admit_validated`).
3. The schemas are unambiguous, so the definitions let through exactly what obeys them
   (`definitions_admit_iff`), and nothing beyond the limits that are printed
   (`definitions_admit_limited`).
-/

namespace LogForwarder

open OpenApi Schema

/-! ## Bounds -/

theorem isAtLeast_bound {low : Nat} (hexact : (bound low).number? = some (low : Rat)) (n : Int) :
    isAtLeast (bound low) (.int n) ↔ (low : Int) ≤ n := by
  unfold isAtLeast
  rw [hexact]
  refine decide_eq_true_iff.trans ?_
  exact_mod_cast Iff.rfl

theorem isAtMost_bound {high : Nat} (hexact : (bound high).number? = some (high : Rat)) (n : Int) :
    isAtMost (bound high) (.int n) ↔ n ≤ (high : Int) := by
  unfold isAtMost
  rw [hexact]
  refine decide_eq_true_iff.trans ?_
  exact_mod_cast Iff.rfl

theorem number?_bound_low : (bound 1).number? = some ((1 : Nat) : Rat) := by decide +kernel

theorem number?_bound_high : (bound 1440).number? = some ((1440 : Nat) : Rat) := by decide +kernel

/-! ## Specifications -/

theorem ElasticSearchSpec.obeys {e : ElasticSearchSpec} (h : e.index.length ≤ maxIndexLength) :
    Obeys schema e.toValue := by
  have hindex : Allows { description := "Index receiving the service logs",
                         maxLength := some 128 } (.str e.index) := by
    refine ⟨fun n hn s hs => ?_, nofun, fun hne => absurd rfl hne⟩
    cases hn
    cases hs
    exact h
  have hauth : e.authType.text ∈ [AuthType.basic.text] := by
    cases e.authType
    exact List.mem_cons_self
  refine obeys_record_iff.mpr ?_
  simp only [List.forall_mem_cons]
  refine ⟨.given .text (allows_description _ _), .given (.choice hauth) (allows_description _ _),
    .given .text hindex, ?_, nofun⟩
  cases hsecret : e.secretRef with
  | none => exact .missing (by decide)
  | some secret => exact .given .text (allows_description _ _)

theorem BackendSpec.obeys {b : BackendSpec} (h : ∀ r ∈ b.requirements, r.holds) :
    Obeys schema b.toValue := by
  simp only [requirements, List.forall_mem_cons] at h
  obtain ⟨htype, -, ⟨-, hindex⟩, -⟩ := h
  have htype : Allows { description := "Backend type",
                        listed := [BackendType.elasticsearch.text] } (.str b.backendType.text) :=
    ⟨nofun, nofun, fun _ => ⟨_, List.mem_cons_self, by rw [htype]⟩⟩
  refine obeys_record_iff.mpr ?_
  simp only [List.forall_mem_cons]
  exact ⟨.given .text htype, .given (ElasticSearchSpec.obeys hindex) (allows_description _ _),
    nofun⟩

theorem CollectionReference.obeys (c : CollectionReference) : Obeys schema c.toValue := by
  refine obeys_record_iff.mpr ?_
  simp only [List.forall_mem_cons]
  refine ⟨.given .text (allows_description _ _), ?_, nofun⟩
  cases hnamespace : c.objectNamespace with
  | none => exact .missing (by decide)
  | some s => exact .given .text (allows_description _ _)

theorem OcmSpec.obeys {o : OcmSpec} (hlow : minPollInterval ≤ o.pollIntervalMinutes.toNat)
    (hhigh : o.pollIntervalMinutes.toNat ≤ maxPollInterval) : Obeys schema o.toValue := by
  have hkind : IntegerKind.unsigned32.holds o.pollIntervalMinutes.toNat := by
    have hsize := o.pollIntervalMinutes.toNat_lt
    simp only [IntegerKind.holds, Bool.and_eq_true, decide_eq_true_eq]
    exact ⟨Int.natCast_nonneg _, Int.ofNat_lt.mpr hsize⟩
  refine obeys_record_iff.mpr ?_
  simp only [List.forall_mem_cons]
  refine ⟨.given .text (allows_description _ _), .given (.integer hkind) ⟨nofun, ?_, ?_⟩,
    .given .text (allows_description _ _), nofun⟩
  · rintro _ ⟨⟩
    exact ⟨(isAtLeast_bound number?_bound_low _).mpr (Int.ofNat_le.mpr hlow),
      (isAtMost_bound number?_bound_high _).mpr (Int.ofNat_le.mpr hhigh)⟩
  · exact fun hne => absurd rfl hne

/-- The specification of a forwarder that meets all that is required of it obeys its schema. -/
theorem Forwarder.obeys {p : Forwarder} (h : ∀ r ∈ p.requirements, r.holds) :
    Obeys ForwarderSpec.schema p.spec.toValue := by
  simp only [requirements, List.forall_mem_append, List.forall_mem_cons] at h
  obtain ⟨⟨-, -, -, -, -, ⟨hlow, hhigh⟩, -⟩, hbackend⟩ := h
  have hocm := OcmSpec.obeys hlow hhigh
  have hbackend := BackendSpec.obeys hbackend
  cases hcollection : p.spec.collection with
  | none =>
    rw [ForwarderSpec.toValue, hcollection]
    refine obeys_record_iff.mpr ?_
    simp only [List.forall_mem_cons]
    exact ⟨.missing (by decide), .given .text (allows_description _ _),
      .given hocm (allows_description _ _), .given hbackend (allows_description _ _),
      .given .flag (allows_description _ _), nofun⟩
  | some c =>
    rw [ForwarderSpec.toValue, hcollection]
    refine obeys_record_iff.mpr ?_
    simp only [List.forall_mem_cons]
    exact ⟨.given c.obeys (allows_description _ _), .given .text (allows_description _ _),
      .given hocm (allows_description _ _), .given hbackend (allows_description _ _),
      .given .flag (allows_description _ _), nofun⟩

/-- The specification of a collection that meets all that is required of it obeys its schema. -/
theorem Collection.obeys {c : Collection} (h : ∀ r ∈ c.requirements, r.holds) :
    Obeys CollectionSpec.schema c.spec.toValue := by
  simp only [requirements, List.forall_mem_append] at h
  have hprovider : c.spec.provider.text ∈ [Provider.rosa.text] := by
    cases c.spec.provider
    exact List.mem_cons_self
  refine obeys_record_iff.mpr ?_
  simp only [List.forall_mem_cons]
  exact ⟨.given (.choice hprovider) (allows_description _ _),
    .given .text (allows_description _ _),
    .given (BackendSpec.obeys h.2) (allows_description _ _), nofun⟩

/-! ## Definitions -/

/-- Whether a definition is of a kind, and a specification conforms to what it says of the kind in
every version that it has. -/
structure Admits (definition : Value) (kind : String) (spec : Value) : Prop where
  kind : definition.textAt? ["spec", "names", "kind"] = some kind
  versions : ∃ versions, definition.itemsAt? ["spec", "versions"] = some versions ∧ versions ≠ []
  conforms : ∀ versions, definition.itemsAt? ["spec", "versions"] = some versions →
    ∀ version ∈ versions, ∃ schema,
      version.get? ["schema", "openAPIV3Schema", "properties", "spec"] = some schema ∧
        OpenApi.conforms schema spec

theorem admits_definition {σ : Type} [WorkloadKind σ] {spec : Value}
    (h : Obeys (WorkloadKind.schema σ) spec) :
    Admits (Workload.definition σ) (WorkloadKind.kind σ) spec where
  kind := rfl
  versions := ⟨_, rfl, by simp⟩
  conforms versions hversions version hversion := by
    cases hversions
    obtain rfl := List.mem_singleton.mp hversion
    exact ⟨_, rfl, conforms_describe h⟩

/-- **What validation accepts, the cluster lets through.** The specification of every forwarder and
of every collection that is accepted conforms to the schema of its kind, in the definitions as they
are printed. -/
theorem definitions_admit_validated (p : Forwarder) (c : Collection) :
    Program.definitions.output =
        Yaml.writeStream [Workload.definition ForwarderSpec, Workload.definition CollectionSpec] ∧
      (p.validate = .ok () →
        Admits (Workload.definition ForwarderSpec) "OCMLogForwarder" p.spec.toValue) ∧
      (c.validate = .ok () →
        Admits (Workload.definition CollectionSpec) "OCMLogForwarderConfig" c.spec.toValue) :=
  ⟨rfl,
    fun hp => admits_definition (σ := ForwarderSpec)
      (Forwarder.obeys ((p.decides.reports "OCMLogForwarder").accepts.mp hp)),
    fun hc => admits_definition (σ := CollectionSpec)
      (Collection.obeys ((c.decides.reports "OCMLogForwarderConfig").accepts.mp hc))⟩

/-- A forwarder and a collection at the bounds. The name of the index has as many characters as it
may have, and twice as many bytes. -/
theorem definitions_admit_validated_bounds :
    let backend : BackendSpec :=
      { elasticSearch := { index := String.ofList (List.replicate 128 'é') } }
    let p : Forwarder :=
      { metadata := { name := some "sample" }
        spec := { collection := some ⟨"all", none⟩
                  ocm := { clusterId := "abc123", pollIntervalMinutes := 1440 }
                  backend } }
    let c : Collection := { metadata := { name := some "all" }, spec := { backend } }
    Admits (Workload.definition ForwarderSpec) "OCMLogForwarder" p.spec.toValue ∧
      Admits (Workload.definition CollectionSpec) "OCMLogForwarderConfig" c.spec.toValue := by
  intro backend p c
  obtain ⟨-, hforwarder, hcollection⟩ := definitions_admit_validated p c
  exact ⟨hforwarder (by decide +kernel), hcollection (by decide +kernel)⟩

/-! ## What the definitions refuse -/

theorem ElasticSearchSpec.unambiguous_schema : schema.Unambiguous := by
  refine .record (by decide) ?_ ?_ <;> simp only [List.forall_mem_cons]
  · exact ⟨nofun, fun h => absurd rfl h, nofun, nofun, nofun⟩
  · exact ⟨.text, .choice, .text, .text, nofun⟩

theorem BackendSpec.unambiguous_schema : schema.Unambiguous := by
  refine .record (by decide) ?_ ?_ <;> simp only [List.forall_mem_cons]
  · exact ⟨fun _ => rfl, fun _ => rfl, nofun⟩
  · exact ⟨.text, ElasticSearchSpec.unambiguous_schema, nofun⟩

theorem CollectionReference.unambiguous_schema : schema.Unambiguous := by
  refine .record (by decide) ?_ ?_ <;> simp only [List.forall_mem_cons]
  · exact ⟨fun _ => rfl, fun _ => rfl, nofun⟩
  · exact ⟨.text, .text, nofun⟩

theorem OcmSpec.unambiguous_schema : schema.Unambiguous := by
  refine .record (by decide) ?_ ?_ <;> simp only [List.forall_mem_cons]
  · exact ⟨fun _ => rfl, fun _ => rfl, fun _ => rfl, nofun⟩
  · exact ⟨.text, .integer, .text, nofun⟩

theorem ForwarderSpec.unambiguous_schema : schema.Unambiguous := by
  refine .record (by decide) ?_ ?_ <;> simp only [List.forall_mem_cons]
  · exact ⟨fun _ => rfl, fun _ => rfl, fun _ => rfl, fun _ => rfl, fun _ => rfl, nofun⟩
  · exact ⟨CollectionReference.unambiguous_schema, .text, OcmSpec.unambiguous_schema,
      BackendSpec.unambiguous_schema, .flag, nofun⟩

theorem CollectionSpec.unambiguous_schema : schema.Unambiguous := by
  refine .record (by decide) ?_ ?_ <;> simp only [List.forall_mem_cons]
  · exact ⟨fun h => absurd rfl h, fun _ => rfl, fun _ => rfl, nofun⟩
  · exact ⟨.choice, .text, BackendSpec.unambiguous_schema, nofun⟩

theorem obeys_of_admits {σ : Type} [WorkloadKind σ] (hs : (WorkloadKind.schema σ).Unambiguous)
    {spec : Value} (h : Admits (Workload.definition σ) (WorkloadKind.kind σ) spec) :
    Obeys (WorkloadKind.schema σ) spec := by
  obtain ⟨schema, hschema, hconforms⟩ := h.conforms _ rfl _ List.mem_cons_self
  cases hschema
  exact (conforms_describe_iff hs).mp hconforms

/-- **The definitions let through what obeys the schemas of the kinds, and nothing else.** -/
theorem definitions_admit_iff (spec : Value) :
    (Admits (Workload.definition ForwarderSpec) "OCMLogForwarder" spec ↔
      Obeys ForwarderSpec.schema spec) ∧
    (Admits (Workload.definition CollectionSpec) "OCMLogForwarderConfig" spec ↔
      Obeys CollectionSpec.schema spec) :=
  ⟨⟨obeys_of_admits (σ := ForwarderSpec) ForwarderSpec.unambiguous_schema,
      admits_definition (σ := ForwarderSpec)⟩,
    ⟨obeys_of_admits (σ := CollectionSpec) CollectionSpec.unambiguous_schema,
      admits_definition (σ := CollectionSpec)⟩⟩

/-- Whether what is given of a backend is within its limits: the type that is served, the one
authentication type, and the length of the name of an index. -/
structure BackendSpec.IsLimited (b : Value) : Prop where
  backendType : ∀ x, b.get? ["type"] = some x → x = .str "elasticsearch"
  authType : ∀ x, b.get? ["elasticSearch", "authType"] = some x → x = .str "basic"
  index : ∀ x, b.get? ["elasticSearch", "index"] = some x → ∃ s, x = .str s ∧ s.length ≤ 128

theorem exists_text_of_obeys {v : Value} (h : Obeys .text v) : ∃ s, v = .str s := by
  cases h
  exact ⟨_, rfl⟩

theorem eq_text_of_obeys_choice {only : String} {v : Value} (h : Obeys (.choice [only]) v) :
    v = .str only := by
  cases h with
  | choice hmem => rw [List.mem_singleton.mp hmem]

theorem BackendSpec.isLimited_of_obeys {v : Value} (h : Obeys schema v) : IsLimited v where
  backendType x hx := by
    obtain ⟨hallows, -⟩ := h.given List.mem_cons_self rfl hx
    obtain ⟨s, hs, rfl⟩ := hallows.listed (List.cons_ne_nil _ _)
    rw [List.mem_singleton.mp hs]
    rfl
  authType x hx := by
    obtain ⟨e, -, he, hx⟩ := h.member (List.mem_cons_of_mem _ List.mem_cons_self) rfl hx
    have hmem := he.given (List.mem_cons_of_mem _ List.mem_cons_self) rfl hx
    exact eq_text_of_obeys_choice hmem.2
  index x hx := by
    obtain ⟨e, -, he, hx⟩ := h.member (List.mem_cons_of_mem _ List.mem_cons_self) rfl hx
    obtain ⟨hallows, hobeys⟩ := he.given
      (List.mem_cons_of_mem _ (List.mem_cons_of_mem _ List.mem_cons_self)) rfl hx
    obtain ⟨s, rfl⟩ := exists_text_of_obeys hobeys
    exact ⟨s, rfl, hallows.maxLength 128 rfl s rfl⟩

theorem OcmSpec.interval_of_obeys {v x : Value} (h : Obeys schema v)
    (hx : v.get? ["pollInternalMinutes"] = some x) : ∃ n : Int, x = .int n ∧ 1 ≤ n ∧ n ≤ 1440 := by
  obtain ⟨hallows, hobeys⟩ := h.given (List.mem_cons_of_mem _ List.mem_cons_self) rfl hx
  obtain ⟨hlow, hhigh⟩ := hallows.bounds (1, 1440) rfl
  cases hobeys with
  | @integer _ n _ =>
    exact ⟨n, rfl, (isAtLeast_bound number?_bound_low n).mp hlow,
      (isAtMost_bound number?_bound_high n).mp hhigh⟩

/-- **What is past a limit, the cluster refuses.** What the definition of forwarders lets through
names a cluster, and if it says how often to poll, says so in minutes from 1 to 1440. What that of
collections lets through has no other provider than the one that there is. Backends stay within their
limits. -/
theorem definitions_admit_limited (spec : Value) :
    (Admits (Workload.definition ForwarderSpec) "OCMLogForwarder" spec →
      (∃ id, spec.get? ["ocm", "clusterId"] = some (.str id)) ∧
      (∀ x, spec.get? ["ocm", "pollInternalMinutes"] = some x →
        ∃ n : Int, x = .int n ∧ 1 ≤ n ∧ n ≤ 1440) ∧
      ∀ b, spec.get? ["backend"] = some b → BackendSpec.IsLimited b) ∧
    (Admits (Workload.definition CollectionSpec) "OCMLogForwarderConfig" spec →
      (∀ x, spec.get? ["provider"] = some x → x = .str "rosa") ∧
      ∀ b, spec.get? ["backend"] = some b → BackendSpec.IsLimited b) := by
  constructor
  · intro h
    have hspec := (definitions_admit_iff spec).1.mp h
    refine ⟨?_, fun x hx => ?_, fun b hb => ?_⟩
    · obtain ⟨ocm, hget, hocm⟩ := hspec.required
        (List.mem_cons_of_mem _ (List.mem_cons_of_mem _ List.mem_cons_self)) rfl
      obtain ⟨x, hx, htext⟩ := hocm.required List.mem_cons_self rfl
      obtain ⟨id, rfl⟩ := exists_text_of_obeys htext
      have happend := spec.get?_append ["ocm"] ["clusterId"]
      rw [hget] at happend
      exact ⟨id, happend.trans hx⟩
    · obtain ⟨ocm, -, hocm, hx⟩ := hspec.member
        (List.mem_cons_of_mem _ (List.mem_cons_of_mem _ List.mem_cons_self)) rfl hx
      exact OcmSpec.interval_of_obeys hocm hx
    · have hmem := hspec.given (List.mem_cons_of_mem _ (List.mem_cons_of_mem _
        (List.mem_cons_of_mem _ List.mem_cons_self))) rfl hb
      exact BackendSpec.isLimited_of_obeys hmem.2
  · intro h
    have hspec := (definitions_admit_iff spec).2.mp h
    refine ⟨fun x hx => ?_, fun b hb => ?_⟩
    · exact eq_text_of_obeys_choice (hspec.given List.mem_cons_self rfl hx).2
    · have hmem := hspec.given
        (List.mem_cons_of_mem _ (List.mem_cons_of_mem _ List.mem_cons_self)) rfl hb
      exact BackendSpec.isLimited_of_obeys hmem.2

/-- The schema does not let everything through: neither too long an interval, nor one of another
type. -/
example : ∀ v ∈ [Value.int 1441, .str "5", .null],
    conforms (.map (Members.ofList OcmSpec.schema.describe))
      (.map [("clusterId", .str "abc123"), ("pollInternalMinutes", v)]) = false := by
  decide +kernel

end LogForwarder
