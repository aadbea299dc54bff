import LogForwarder.Proofs.Schema.Place
import LogForwarder.Proofs.Workload.Validation

/-!
# Poll intervals of forwarders

How the poll interval bears on how a forwarder is read and on what validation makes of it.

1. An object that would be a valid forwarder with some interval is one with the interval that it
   reads as, and none where the interval cannot be read (`ValidButInterval.exists_reads_iff`).
2. What validation makes of this forwarder hangs on the interval alone
   (`Forwarder.validate_withInterval`).
-/

namespace LogForwarder

open Schema

/-! ## The place of the interval -/

namespace Forwarder

/-- The place of the poll interval in the object of a forwarder. -/
def intervalPath : List String := ["spec", "ocm", "pollInternalMinutes"]

theorem isPlace_intervalPath : (Workload.schema ForwarderSpec).IsPlace intervalPath := by
  have hinterval : OcmSpec.schema.IsPlace ["pollInternalMinutes"] :=
    .member (by decide) (.tail _ (.head _)) rfl .here
  have hocm : ForwarderSpec.schema.IsPlace ["ocm", "pollInternalMinutes"] :=
    .member (by decide) (.tail _ (.tail _ (.head _))) rfl hinterval
  exact .member (by decide) (.tail _ (.head _)) rfl hocm

/-- The schema of forwarders, with another one for the interval. -/
def schemaWithInterval (interval : Schema) : Schema :=
  (Workload.schema ForwarderSpec).replaceAt intervalPath interval

theorem schemaWithInterval_self :
    schemaWithInterval (.integer .unsigned32) = Workload.schema ForwarderSpec := rfl

/-- A forwarder with another poll interval. -/
def withInterval (r : Forwarder) (minutes : UInt32) : Forwarder :=
  { r with spec := { r.spec with ocm := { r.spec.ocm with pollIntervalMinutes := minutes } } }

section

variable {f : Frame} {v w : Value}

theorem ofValue_fill_interval (hf : f.name = "pollInternalMinutes") (n : Nat) (w : Value) :
    OcmSpec.ofValue (f.fill (.int n)) =
      { OcmSpec.ofValue (f.fill w) with pollIntervalMinutes := UInt32.ofNat n } := by
  have hself : (f.fill (.int n)).member "pollInternalMinutes" = .int n := hf ▸ f.member_fill_self _
  have hother {key : String} (h : "pollInternalMinutes" ≠ key) :
      (f.fill (.int n)).member key = (f.fill w).member key := f.member_fill_of_ne (hf ▸ h)
  unfold OcmSpec.ofValue
  rw [hself, hother (by decide), hother (by decide)]
  rfl

theorem ofValue_fill_ocm (hf : f.name = "ocm") (v w : Value) :
    ForwarderSpec.ofValue (f.fill v) =
      { ForwarderSpec.ofValue (f.fill w) with ocm := OcmSpec.ofValue v } := by
  have hself : (f.fill v).member "ocm" = v := hf ▸ f.member_fill_self _
  have hother {key : String} (h : "ocm" ≠ key) :
      (f.fill v).member key = (f.fill w).member key := f.member_fill_of_ne (hf ▸ h)
  unfold ForwarderSpec.ofValue
  rw [hself, hother (by decide), hother (by decide), hother (by decide), hother (by decide)]

theorem ofValue_fill_spec (hf : f.name = "spec") (v w : Value) :
    (Workload.ofValue (f.fill v) : Forwarder) =
      { (Workload.ofValue (f.fill w) : Forwarder) with spec := ForwarderSpec.ofValue v } := by
  have hself : (f.fill v).member "spec" = v := hf ▸ f.member_fill_self _
  have hother {key : String} (h : "spec" ≠ key) :
      (f.fill v).member key = (f.fill w).member key := f.member_fill_of_ne (hf ▸ h)
  unfold Workload.ofValue
  rw [hself, hother (by decide), hother (by decide)]
  rfl

end

/-- What stands at the place of the interval is the interval, and has no other effect. -/
theorem ofValue_fillAll {fs : List Frame} (hfs : fs.map (·.name) = intervalPath) (n : Nat)
    (w : Value) :
    (Workload.ofValue (Frame.fillAll fs (.int n)) : Forwarder) =
      withInterval (Workload.ofValue (Frame.fillAll fs w)) (UInt32.ofNat n) := by
  obtain ⟨spec, fs, rfl, hspec, hfs⟩ := List.map_eq_cons_iff.mp hfs
  obtain ⟨ocm, fs, rfl, hocm, hfs⟩ := List.map_eq_cons_iff.mp hfs
  obtain ⟨interval, fs, rfl, hinterval, hfs⟩ := List.map_eq_cons_iff.mp hfs
  obtain rfl := List.map_eq_nil_iff.mp hfs
  show Workload.ofValue (spec.fill (ocm.fill (interval.fill (.int n)))) =
    withInterval (Workload.ofValue (spec.fill (ocm.fill (interval.fill w)))) _
  rw [ofValue_fill_spec hspec _ (ocm.fill (interval.fill w)),
    ofValue_fill_ocm hocm _ (interval.fill w), ofValue_fill_interval hinterval n w]
  have hspecOf : (Workload.ofValue (spec.fill (ocm.fill (interval.fill w))) : Forwarder).spec =
      ForwarderSpec.ofValue (ocm.fill (interval.fill w)) :=
    congrArg ForwarderSpec.ofValue (hspec ▸ spec.member_fill_self _)
  have hocmOf : (ForwarderSpec.ofValue (ocm.fill (interval.fill w))).ocm =
      OcmSpec.ofValue (interval.fill w) :=
    congrArg OcmSpec.ofValue (hocm ▸ ocm.member_fill_self _)
  unfold withInterval
  rw [hspecOf, hocmOf]

/-! ## Validation -/

variable {r : Forwarder} {minutes : UInt32}

/-- No check but its own is about the interval, and none after it fails. -/
theorem checkForwarder_withInterval
    (h : Validation.checkForwarder (r.withInterval minutes) = .ok ()) (n : UInt32) :
    Validation.checkForwarder (r.withInterval n) =
      Validation.field "spec.ocm.pollInternalMinutes" (Validation.checkPollInterval n) := by
  obtain ⟨hlabel, hname, hnamespace, hcollection, htag, hcluster, -, hsecret, hbackend⟩ :=
    Validation.checkForwarder_eq_ok_iff.mp h
  cases hinterval : Validation.checkPollInterval n with
  | ok _ =>
    exact Validation.checkForwarder_eq_ok_iff.mpr
      ⟨hlabel, hname, hnamespace, hcollection, htag, hcluster, hinterval, hsecret, hbackend⟩
  | error e =>
    unfold Validation.checkForwarder
    refine bind_eq_error.mpr (.inr ⟨(), Validation.field_eq_ok_iff.mpr hlabel, ?_⟩)
    refine bind_eq_error.mpr (.inr ⟨(), Validation.field_eq_ok_iff.mpr hname, ?_⟩)
    refine bind_eq_error.mpr (.inr ⟨(), Validation.optional_eq_ok_iff.mpr hnamespace, ?_⟩)
    refine bind_eq_error.mpr (.inr ⟨(), Validation.optional_eq_ok_iff.mpr hcollection, ?_⟩)
    refine bind_eq_error.mpr (.inr ⟨(), Validation.field_eq_ok_iff.mpr htag, ?_⟩)
    refine bind_eq_error.mpr (.inr ⟨(), Validation.field_eq_ok_iff.mpr hcluster, ?_⟩)
    exact bind_eq_error.mpr (.inl (congrArg _ hinterval))

/-- **Validation hangs on the interval alone**, if it accepts a forwarder with some interval. -/
theorem validate_withInterval (h : (r.withInterval minutes).validate = .ok ()) (n : UInt32) :
    (r.withInterval n).validate =
      if 1 ≤ n.toNat ∧ n.toNat ≤ 1440 then .ok ()
      else .error (.invalid "OCMLogForwarder" "spec.ocm.pollInternalMinutes"
        (.outOfBounds 1 1440 n.toNat)) := by
  unfold Forwarder.validate
  rw [checkForwarder_withInterval (Validation.orError_eq_ok_iff.mp h)]
  show Validation.orError _ (Validation.field _ (if 1 ≤ n.toNat ∧ n.toNat ≤ 1440 then _ else _)) = _
  split_ifs <;> rfl

end Forwarder

/-! ## Reading -/

/-- Whether an object that is read in some way is a valid forwarder but for its interval: it is read
if any number will do for the interval, and validation accepts it with another one. -/
def ValidButInterval {ε : Type} (read : Schema → Except ε Value) : Prop :=
  ∃ w minutes, read (Forwarder.schemaWithInterval .quantity) = .ok w ∧
    (Forwarder.withInterval (Workload.ofValue w) minutes).validate = .ok ()

section

variable {ε ε' : Type} {read : Schema → Except ε Value} {inner : Schema → Except ε' Value}
  {spells : Nat → Prop}

theorem validButInterval_of_map {minutes : UInt32}
    (h : (read (Forwarder.schemaWithInterval .quantity)).map
      (fun w => (Forwarder.withInterval (Workload.ofValue w) minutes).validate) = .ok (.ok ())) :
    ValidButInterval read := by
  obtain ⟨w, hw, hchecked⟩ := map_eq_ok.mp h
  exact ⟨w, minutes, hw, hchecked⟩

/-- **What a forwarder is read as hangs on the interval alone.** -/
theorem ValidButInterval.exists_reads_iff (h : ValidButInterval read)
    (hread : ReadsAround Forwarder.intervalPath
      (fun interval => read (Forwarder.schemaWithInterval interval)) inner)
    (hinner : ∀ y, inner (.integer .unsigned32) = .ok y ↔
      ∃ n, spells n ∧ n < UInt32.size ∧ y = .int n) :
    ∃ r : Forwarder, (∃ minutes, (r.withInterval minutes).validate = .ok ()) ∧
      ∀ q : Forwarder,
        (read (Workload.schema ForwarderSpec)).map Workload.ofValue = .ok q ↔
          ∃ n, spells n ∧ n < UInt32.size ∧ q = r.withInterval (UInt32.ofNat n) := by
  obtain ⟨w, minutes, hw, hvalid⟩ := h
  obtain ⟨frames, hnames, hframes⟩ := hread
  obtain ⟨fs, hfs, y₀, -, rfl⟩ := (hframes _ _).mp hw
  refine ⟨_, ⟨minutes, hvalid⟩, fun q => ?_⟩
  rw [map_eq_ok, ← Forwarder.schemaWithInterval_self]
  constructor
  · rintro ⟨_, hq, rfl⟩
    obtain ⟨fs', hfs', y, hy, rfl⟩ := (hframes _ _).mp hq
    obtain rfl := Option.mem_unique hfs hfs'
    obtain ⟨n, hn, hlt, rfl⟩ := (hinner _).mp hy
    exact ⟨n, hn, hlt, Forwarder.ofValue_fillAll (hnames fs hfs) n y₀⟩
  · rintro ⟨n, hn, hlt, rfl⟩
    exact ⟨_, (hframes _ _).mpr ⟨fs, hfs, _, (hinner _).mpr ⟨n, hn, hlt, rfl⟩, rfl⟩,
      Forwarder.ofValue_fillAll (hnames fs hfs) n y₀⟩

end

end LogForwarder
