import LogForwarder.Proofs.Cluster.Grammar
import LogForwarder.Proofs.Workload.Validation

/-!
# Requirements of workloads

What is required of the fields of a workload, in the order in which they are looked at, said
without the checks.

1. A check in front of others decides one more requirement (`Decides.cons`), so that the checks of a
   backend, a forwarder and a collection decide theirs (`BackendSpec.decides`,
   `Forwarder.decides`, `Collection.decides`). The two checks of the name of a forwarder are one
   requirement.
2. A workload is accepted exactly if it meets all of its requirements, and otherwise the first field
   that does not is reported (`validate_reports`).
-/

namespace LogForwarder

open Identifier Validation

/-! ## Requirements -/

/-- What is required of a field. -/
structure Requirement where
  field : String
  holds : Prop

/-- Whether a field is the first of which something is required that does not hold. -/
def IsFirstViolated (rs : List Requirement) (field : String) : Prop :=
  ∃ before r after, rs = before ++ r :: after ∧ (∀ b ∈ before, b.holds) ∧ ¬r.holds ∧ r.field = field

/-- Whether checks pass exactly if all requirements hold, and otherwise name the first field of
which one does not. -/
structure Decides (x : Checked) (rs : List Requirement) : Prop where
  accepts : x = .ok () ↔ ∀ r ∈ rs, r.holds
  names : ∀ field, (∃ complaint, x = .error ⟨field, complaint⟩) ↔ IsFirstViolated rs field

/-- Whether validation accepts what meets all requirements, and otherwise reports the first field
that does not as one of an object of a kind. -/
structure Reports (kind : String) (x : Except GenerationError Unit) (rs : List Requirement) :
    Prop where
  accepts : x = .ok () ↔ ∀ r ∈ rs, r.holds
  names : ∀ field,
    (∃ complaint, x = .error (.invalid kind field complaint)) ↔ IsFirstViolated rs field
  only : ∀ e, x = .error e → ∃ field complaint, e = .invalid kind field complaint

/-- Whether a text has more than white space. -/
def HasInk (s : String) : Prop := ∃ c ∈ s.toList, ¬Text.isBlank c

/-- What is required of a backend. -/
def BackendSpec.requirements (b : BackendSpec) : List Requirement :=
  [ ⟨"spec.backend.type", b.backendType = .elasticsearch⟩,
    ⟨"spec.backend.elasticSearch.url", HasInk b.elasticSearch.url⟩,
    ⟨"spec.backend.elasticSearch.index",
      1 ≤ b.elasticSearch.index.length ∧ b.elasticSearch.index.length ≤ 128⟩,
    ⟨"spec.backend.elasticSearch.secretRef",
      ∀ secret, b.elasticSearch.secretRef = some secret → IsSubdomain secret⟩ ]

/-- What is required of a forwarder. -/
def Forwarder.requirements (p : Forwarder) : List Requirement :=
  [ ⟨"metadata.name",
      IsSubdomain (p.metadata.name.getD "") ∧ (p.metadata.name.getD "").utf8ByteSize ≤ 63⟩,
    ⟨"metadata.namespace", ∀ s, p.metadata.objectNamespace = some s → IsDnsLabel s⟩,
    ⟨"spec.collection.name", ∀ c, p.spec.collection = some c → IsSubdomain c.name⟩,
    ⟨"spec.forwarderVersion", IsTag p.spec.forwarderVersion⟩,
    ⟨"spec.ocm.clusterId", HasInk p.spec.ocm.clusterId⟩,
    ⟨"spec.ocm.pollInternalMinutes",
      1 ≤ p.spec.ocm.pollIntervalMinutes.toNat ∧ p.spec.ocm.pollIntervalMinutes.toNat ≤ 1440⟩,
    ⟨"spec.ocm.secretRef", IsSubdomain p.spec.ocm.secretRef⟩ ] ++ p.spec.backend.requirements

/-- What is required of a collection. -/
def Collection.requirements (c : Collection) : List Requirement :=
  [ ⟨"metadata.name", IsSubdomain (c.metadata.name.getD "")⟩,
    ⟨"spec.forwarderNamespace", IsDnsLabel c.spec.forwarderNamespace⟩ ] ++
      c.spec.backend.requirements

/-! ## Checks in a row -/

theorem isFirstViolated_cons {r : Requirement} {rs : List Requirement} {field : String} :
    IsFirstViolated (r :: rs) field ↔
      ¬r.holds ∧ r.field = field ∨ r.holds ∧ IsFirstViolated rs field := by
  constructor
  · rintro ⟨before, q, after, hsplit, hbefore, hq, hfield⟩
    cases before with
    | nil =>
      cases hsplit
      exact .inl ⟨hq, hfield⟩
    | cons b before =>
      cases hsplit
      obtain ⟨hb, hbefore⟩ := List.forall_mem_cons.mp hbefore
      exact .inr ⟨hb, before, q, after, rfl, hbefore, hq, hfield⟩
  · rintro (⟨hr, hfield⟩ | ⟨hr, before, q, after, rfl, hbefore, hq, hfield⟩)
    · exact ⟨[], r, rs, rfl, nofun, hr, hfield⟩
    · exact ⟨r :: before, q, after, rfl, List.forall_mem_cons.mpr ⟨hr, hbefore⟩, hq, hfield⟩

theorem decides_nil : Decides (.ok ()) [] where
  accepts := ⟨fun _ => nofun, fun _ => rfl⟩
  names field := by
    constructor
    · rintro ⟨_, ⟨⟩⟩
    · rintro ⟨before, r, after, h, -⟩
      simp at h

variable {name : String} {holds : Prop} {rs : List Requirement} {x y : Except Complaint Unit}
  {z : Checked}

/-- A check in front of others comes first. -/
theorem Decides.cons (h : x = .ok () ↔ holds) (hz : Decides z rs) :
    Decides (field name x >>= fun _ => z) (⟨name, holds⟩ :: rs) where
  accepts := by rw [then_eq_ok_iff, field_eq_ok_iff, h, hz.accepts, List.forall_mem_cons]
  names other := by
    rw [isFirstViolated_cons, ← h, ← hz.names]
    cases x with
    | ok _ => simp [field, bind, Except.bind]
    | error complaint => simp [field, bind, Except.bind]

/-- Two checks of one field are one requirement. -/
theorem Decides.cons₂ (h : x = .ok () ∧ y = .ok () ↔ holds) (hz : Decides z rs) :
    Decides (field name x >>= fun _ => field name y >>= fun _ => z) (⟨name, holds⟩ :: rs) := by
  have hfield : field name (x >>= fun _ => y) = field name x >>= fun _ => field name y := by
    cases x <;> rfl
  have hone : Decides (field name (x >>= fun _ => y) >>= fun _ => z) (⟨name, holds⟩ :: rs) :=
    .cons (then_eq_ok_iff.trans h) hz
  rwa [hfield, bind_assoc] at hone

/-- The last check is followed by nothing. -/
theorem Decides.single (h : x = .ok () ↔ holds) : Decides (field name x) [⟨name, holds⟩] := by
  have hfield : (field name x >>= fun _ => .ok ()) = field name x := by
    cases x <;> rfl
  exact hfield ▸ Decides.cons h decides_nil

/-! ## Fields -/

/-- A field that may be left out is checked as one that is there, unless it is left out. -/
theorem optional_eq_field (name : String) (check : String → Except Complaint Unit)
    (o : Option String) : optional name check o = field name ((o.map check).getD (.ok ())) := by
  cases o <;> rfl

theorem getD_check_eq_ok_iff {α : Type} {check : α → Except Complaint Unit} {p : α → Prop}
    (h : ∀ a, check a = .ok () ↔ p a) (o : Option α) :
    (o.map check).getD (.ok ()) = .ok () ↔ ∀ a, o = some a → p a := by
  cases o with
  | none => simp
  | some a => simp [h]

theorem checkNotBlank_eq_ok_iff {s : String} : checkNotBlank s = .ok () ↔ HasInk s := by
  have hblank : Text.isBlankText s ↔ ¬HasInk s := by
    simp [Text.isBlankText, HasInk]
  unfold checkNotBlank
  split_ifs with h
  · exact ⟨nofun, fun hink => absurd hink (hblank.mp h)⟩
  · exact ⟨fun _ => not_not.mp fun hink => h (hblank.mpr hink), fun _ => rfl⟩

theorem checkPollInterval_eq_ok_iff {minutes : UInt32} :
    checkPollInterval minutes = .ok () ↔ 1 ≤ minutes.toNat ∧ minutes.toNat ≤ 1440 := by
  dsimp only [checkPollInterval]
  split_ifs with h
  · exact ⟨fun _ => h, fun _ => rfl⟩
  · exact ⟨nofun, fun hbounds => absurd hbounds h⟩

theorem checkIndex_eq_ok_iff {s : String} :
    checkIndex s = .ok () ↔ 1 ≤ s.length ∧ s.length ≤ 128 := by
  have hmost : ElasticSearchSpec.maxIndexLength = 128 := rfl
  unfold checkIndex
  rw [hmost]
  split_ifs with hempty hlong
  · exact ⟨nofun, fun h => absurd (String.length_eq_zero_iff.mpr hempty) (by omega)⟩
  · exact ⟨nofun, fun h => absurd hlong (by omega)⟩
  · have hne : s.length ≠ 0 := fun h => hempty (String.length_eq_zero_iff.mp h)
    exact ⟨fun _ => by omega, fun _ => rfl⟩

/-! ## Workloads -/

theorem BackendSpec.decides (b : BackendSpec) : Decides (checkBackend b) b.requirements := by
  unfold checkBackend requirements
  rw [optional_eq_field]
  refine .cons ?_ (.cons checkNotBlank_eq_ok_iff (.cons checkIndex_eq_ok_iff (.single
    (getD_check_eq_ok_iff (fun _ => checkName_accepts_iff) _))))
  cases b.backendType <;> simp [checkBackendType]

theorem Forwarder.decides (p : Forwarder) : Decides (checkForwarder p) p.requirements := by
  unfold checkForwarder requirements
  rw [optional_eq_field, optional_eq_field, Option.map_map]
  exact .cons₂ checkLabel_and_checkName_iff (.cons
    (getD_check_eq_ok_iff (fun _ => checkNamespace_accepts_iff) _) (.cons
    (getD_check_eq_ok_iff (fun _ => checkName_accepts_iff) _) (.cons checkImageTag_accepts_iff
    (.cons checkNotBlank_eq_ok_iff (.cons checkPollInterval_eq_ok_iff
    (.cons checkName_accepts_iff p.spec.backend.decides))))))

theorem Collection.decides (c : Collection) : Decides (checkCollection c) c.requirements :=
  .cons checkName_accepts_iff (.cons checkNamespace_accepts_iff c.spec.backend.decides)

/-- What the checks name is reported. -/
theorem Decides.reports (kind : String) (h : Decides z rs) :
    Reports kind (orError kind z) rs where
  accepts := orError_eq_ok_iff.trans h.accepts
  names other := by
    rw [← h.names]
    cases z with
    | ok _ => simp [orError]
    | error c =>
      obtain ⟨f, complaint⟩ := c
      simp [orError]
  only e he := by
    cases z with
    | ok _ => cases he
    | error c =>
      cases he
      exact ⟨c.field, c.complaint, rfl⟩

/-- **Validation is exact and reports the first field at fault.** A forwarder or collection is
accepted exactly if it meets all that is required of it. Otherwise the error is one of its kind, and
names the first field of which something is required that does not hold. -/
theorem validate_reports (p : Forwarder) (c : Collection) :
    Reports "OCMLogForwarder" p.validate p.requirements ∧
      Reports "OCMLogForwarderConfig" c.validate c.requirements :=
  ⟨p.decides.reports _, c.decides.reports _⟩

end LogForwarder
