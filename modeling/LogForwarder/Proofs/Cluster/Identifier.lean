import LogForwarder.Cluster.Identifier
import Mathlib.Tactic.SplitIfs

/-!
# Names with suffixes

1. A name goes on after any name as it may after a letter (`isNameFrom_append`), so a suffix keeps
   the form of every name or of none.
2. A suffix that keeps the form leaves a name valid exactly if the two are not too long together
   (`checkName_append_eq_ok_iff`).
3. Whatever may name a namespace may name any object (`checkName_of_checkNamespace`).
-/

namespace LogForwarder.Identifier

/-! ## The forms -/

/-- What follows a name is read as if a letter stood before it. -/
theorem isNameFrom_append {dots : Bool} {before : Before} {cs : List Char} (ds : List Char)
    (h : isNameFrom dots before cs) :
    isNameFrom dots before (cs ++ ds) = isNameFrom dots .plain ds := by
  induction cs generalizing before with
  | nil =>
    cases before with
    | plain => rfl
    | start => cases h
    | hyphen => cases h
  | cons c cs ih =>
    rw [isNameFrom] at h
    rw [List.cons_append, isNameFrom]
    split_ifs at h ⊢ with hplain hhyphen
    · exact ih h
    · obtain ⟨hbefore, h⟩ := Bool.and_eq_true_iff.mp h
      rw [hbefore, Bool.true_and, ih h]
    · obtain ⟨hbefore, h⟩ := Bool.and_eq_true_iff.mp h
      rw [hbefore, Bool.true_and, ih h]

theorem isName_append {s t : String} (h : isName s) :
    isName (s ++ t) = isNameFrom true .plain t.toList := by
  unfold isName
  rw [String.toList_append]
  exact isNameFrom_append t.toList h

/-- Where dots are not allowed, a form without dots is a form with them. -/
theorem isNameFrom_true {before : Before} {cs : List Char} (h : isNameFrom false before cs) :
    isNameFrom true before cs := by
  induction cs generalizing before with
  | nil => cases before <;> first | rfl | cases h
  | cons c cs ih =>
    rw [isNameFrom] at h ⊢
    split_ifs at h ⊢ with hplain hhyphen
    · exact ih h
    · obtain ⟨hbefore, h⟩ := Bool.and_eq_true_iff.mp h
      rw [hbefore, Bool.true_and, ih h]
    · simp at h

/-! ## The checks -/

theorem check_eq_ok_iff {limit : Nat} {form : String → Bool} {complaint : String → Complaint}
    {s : String} :
    check limit form complaint s = .ok () ↔ s ≠ "" ∧ s.utf8ByteSize ≤ limit ∧ form s := by
  unfold check
  split_ifs with hempty hlong hform
  · exact ⟨(nomatch ·), fun h => absurd hempty h.1⟩
  · exact ⟨(nomatch ·), fun h => absurd h.2.1 (by omega)⟩
  · exact ⟨fun _ => ⟨hempty, by omega, hform⟩, fun _ => rfl⟩
  · exact ⟨(nomatch ·), fun h => absurd h.2.2 hform⟩

theorem checkName_of_checkNamespace {s : String} (h : checkNamespace s = .ok ()) :
    checkName s = .ok () := by
  obtain ⟨hempty, hsize, hform⟩ := check_eq_ok_iff.mp h
  exact check_eq_ok_iff.mpr ⟨hempty, by omega, isNameFrom_true hform⟩

theorem checkName_eq_ok_iff {s : String} (h : checkName s = .ok ()) :
    checkName s = .ok () ↔ s.utf8ByteSize ≤ 253 :=
  ⟨fun _ => (check_eq_ok_iff.mp h).2.1, fun _ => h⟩

/-- A name with a suffix that keeps its form is valid if it is not too long. -/
theorem checkName_append_eq_ok_iff {s t : String} (h : checkName s = .ok ())
    (ht : isNameFrom true .plain t.toList) :
    checkName (s ++ t) = .ok () ↔ (s ++ t).utf8ByteSize ≤ 253 := by
  obtain ⟨hempty, _, hform⟩ := check_eq_ok_iff.mp h
  have happend : s ++ t ≠ "" := fun e => hempty (String.append_eq_empty_iff.mp e).1
  unfold checkName
  rw [check_eq_ok_iff, isName_append hform]
  exact ⟨fun h => h.2.1, fun hsize => ⟨happend, hsize, ht⟩⟩

end LogForwarder.Identifier
