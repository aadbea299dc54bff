import LogForwarder.Number.Text
import Mathlib.Tactic.IntervalCases

/-!
# Numerals read back

The digits of a number, in whatever radix and case of letters they are written, spell that number,
and zeros before them change nothing.
-/

namespace LogForwarder.Numeral

variable {radix : Nat}

/-- Whole numbers are written as they usually are. -/
theorem decimal_eq_toString (n : Int) : decimal n = toString n := by
  cases n with
  | ofNat n => rfl
  | negSucc n =>
    have htext : toString (Int.negSucc n) = "-" ++ String.ofList (Nat.toDigits 10 (n + 1)) := rfl
    have hdecimal : decimal (Int.negSucc n) = String.ofList ('-' :: Nat.toDigits 10 (n + 1)) :=
      if_pos (Int.negSucc_lt_zero n)
    rw [htext, hdecimal, ← String.toList_inj]
    simp

/-! ## Single digits -/

theorem digitValue?_eq_some {d : Nat} {c : Char}
    (h : digitValue? 16 c = some d) (hd : d < radix) : digitValue? radix c = some d := by
  unfold digitValue? at h ⊢
  rw [Option.filter_eq_some_iff] at h ⊢
  exact ⟨h.1, by simpa using hd⟩

theorem digitValue?_digitChar {d : Nat} (hr : radix ≤ 16) (hd : d < radix) :
    digitValue? radix d.digitChar = some d := by
  refine digitValue?_eq_some ?_ hd
  have small : d < 16 := by omega
  interval_cases d <;> decide

theorem digitValue?_toUpper_digitChar {d : Nat} (hr : radix ≤ 16) (hd : d < radix) :
    digitValue? radix d.digitChar.toUpper = some d := by
  refine digitValue?_eq_some ?_ hd
  have small : d < 16 := by omega
  interval_cases d <;> decide

/-! ## Several digits -/

theorem ofDigitsFrom?_append (high : Nat) (cs ds : List Char) :
    ofDigitsFrom? radix high (cs ++ ds) =
      (ofDigitsFrom? radix high cs).bind fun n => ofDigitsFrom? radix n ds := by
  induction cs generalizing high with
  | nil => simp [ofDigitsFrom?]
  | cons c cs ih =>
    cases hc : digitValue? radix c with
    | none => simp [ofDigitsFrom?, hc]
    | some d => simp [ofDigitsFrom?, hc, ih]

theorem eq_digitChar_of_mem_toDigits (hr : 1 < radix) {n : Nat} {c : Char}
    (h : c ∈ Nat.toDigits radix n) : ∃ d < radix, c = d.digitChar := by
  induction n using Nat.strong_induction_on with
  | _ n ih =>
    by_cases small : n < radix
    · rw [Nat.toDigits_of_lt_base small, List.mem_singleton] at h
      exact ⟨n, small, h⟩
    · rw [Nat.toDigits_of_base_le hr (by omega), List.mem_append, List.mem_singleton] at h
      rcases h with h | h
      · exact ih (n / radix) (Nat.div_lt_self (by omega) hr) h
      · exact ⟨n % radix, Nat.mod_lt n (by omega), h⟩

/-- Digits spell their number in any notation that keeps the value of each of them. -/
theorem ofDigitsFrom?_map_toDigits {f : Char → Char} (hr : 1 < radix)
    (hf : ∀ d < radix, digitValue? radix (f d.digitChar) = some d) (n : Nat) :
    ofDigitsFrom? radix 0 ((Nat.toDigits radix n).map f) = some n := by
  induction n using Nat.strong_induction_on with
  | _ n ih =>
    by_cases h : n < radix
    · rw [Nat.toDigits_of_lt_base h]
      simp [ofDigitsFrom?, hf n h]
    · have hlt : n / radix < n := Nat.div_lt_self (by omega) hr
      have last := hf (n % radix) (Nat.mod_lt n (by omega))
      rw [Nat.toDigits_of_base_le hr (by omega), List.map_append, ofDigitsFrom?_append, ih _ hlt]
      simp only [List.map_cons, List.map_nil, ofDigitsFrom?, Option.bind_some, last,
        Option.bind_eq_bind]
      rw [Nat.mul_comm, Nat.div_add_mod]

theorem ofDigits?_eq {cs : List Char} (h : cs ≠ []) :
    ofDigits? radix cs = ofDigitsFrom? radix 0 cs := by
  cases cs with
  | nil => exact absurd rfl h
  | cons c cs => rfl

/-- The decimal digits of a number spell it. -/
theorem ofDigits?_toDigits (n : Nat) : ofDigits? 10 (Nat.toDigits 10 n) = some n := by
  rw [ofDigits?_eq Nat.toDigits_ne_nil]
  have h := ofDigitsFrom?_map_toDigits (f := id) (by decide : 1 < 10)
    (fun d hd => digitValue?_digitChar (by decide) hd) n
  rwa [List.map_id] at h

theorem ofDigitsFrom?_zeros (hr : 0 < radix) (count : Nat) (cs : List Char) :
    ofDigitsFrom? radix 0 (List.replicate count '0' ++ cs) = ofDigitsFrom? radix 0 cs := by
  induction count with
  | zero => rfl
  | succ count ih =>
    have zero : digitValue? radix '0' = some 0 := digitValue?_eq_some (by decide) hr
    rw [List.replicate_succ, List.cons_append, ofDigitsFrom?, zero]
    simpa using ih

/-! ## Decimal numerals -/

theorem isDigit_of_mem_toDigits {n : Nat} {c : Char} (h : c ∈ Nat.toDigits 10 n) :
    c.isDigit = true :=
  Nat.isDigit_of_mem_toDigits (by decide) (by decide) h

/-- No number but zero has a numeral that begins with a zero. -/
theorem head?_toDigits_ne {n : Nat} (h : 0 < n) : (Nat.toDigits 10 n).head? ≠ some '0' := by
  induction n using Nat.strong_induction_on with
  | _ n ih =>
    by_cases small : n < 10
    · rw [Nat.toDigits_of_lt_base small]
      interval_cases n <;> decide
    · have first := ih (n / 10) (by omega) (by omega)
      obtain ⟨c, cs, digits⟩ := List.exists_cons_of_ne_nil
        (Nat.toDigits_ne_nil : Nat.toDigits 10 (n / 10) ≠ [])
      rw [digits] at first
      rw [Nat.toDigits_of_base_le (by decide) (by omega), digits]
      exact first

end LogForwarder.Numeral
