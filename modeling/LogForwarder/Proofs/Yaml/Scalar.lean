import LogForwarder.Proofs.Number.Numeral
import LogForwarder.Yaml.Scalar
import Mathlib.Tactic.SplitIfs

/-!
# The meaning of numerals

An unquoted scalar that is the numeral of an integer stands for that integer.
-/

namespace LogForwarder.Yaml

open Numeral (decimal)

/-! ## Digits -/

theorem marked?_eq_none {cs : List Char} (h : ∀ c ∈ cs, c.isDigit = true) : marked? cs = none := by
  unfold marked?
  split
  · exact absurd (h 'x' (by simp)) (by decide)
  · exact absurd (h 'o' (by simp)) (by decide)
  · exact absurd (h 'b' (by simp)) (by decide)
  · rfl

/-- Digits are zero-padded only where more of them follow a zero. -/
theorem isZeroPadded_eq_false {cs : List Char} (digits : ∀ c ∈ cs, c.isDigit = true)
    (first : cs.head? = some '0' → cs = ['0']) :
    isZeroPadded cs = false ∧ isZeroPadded ('-' :: cs) = false := by
  rcases cs with _ | ⟨c, cs⟩
  · exact ⟨rfl, rfl⟩
  have digit : c.isDigit = true := digits c List.mem_cons_self
  have minus : c ≠ '-' := by rintro rfl; exact absurd digit (by decide)
  have plus : c ≠ '+' := by rintro rfl; exact absurd digit (by decide)
  by_cases zero : c = '0'
  · subst zero
    obtain rfl : cs = [] := by simpa using first rfl
    exact ⟨rfl, rfl⟩
  · simp [isZeroPadded, zero, minus, plus]

section Digits

variable (n : Nat)

theorem eq_of_head?_toDigits (h : (Nat.toDigits 10 n).head? = some '0') :
    Nat.toDigits 10 n = ['0'] := by
  rcases Nat.eq_zero_or_pos n with rfl | positive
  · rfl
  · exact absurd h (Numeral.head?_toDigits_ne positive)

theorem isZeroPadded_toDigits : isZeroPadded (Nat.toDigits 10 n) = false ∧
    isZeroPadded ('-' :: Nat.toDigits 10 n) = false :=
  isZeroPadded_eq_false (fun _ => Numeral.isDigit_of_mem_toDigits) (eq_of_head?_toDigits n)

theorem marked?_toDigits : marked? (Nat.toDigits 10 n) = none :=
  marked?_eq_none fun _ => Numeral.isDigit_of_mem_toDigits

theorem head?_toDigits_ne_sign {c : Char} (h : c.isDigit = false) :
    (Nat.toDigits 10 n).head? ≠ some c := by
  intro head
  have digit := Numeral.isDigit_of_mem_toDigits (List.mem_of_head? head)
  simp [digit] at h

theorem dropPlus_toDigits : dropPlus (Nat.toDigits 10 n) = Nat.toDigits 10 n := by
  have h := head?_toDigits_ne_sign n (c := '+') (by decide)
  unfold dropPlus
  split
  · simp_all
  · rfl

theorem unsigned?_toDigits : unsigned? (Nat.toDigits 10 n) = some n := by
  unfold unsigned?
  rw [dropPlus_toDigits, marked?_toDigits, (isZeroPadded_toDigits n).1, Numeral.ofDigits?_toDigits]
  rfl

theorem negated?_toDigits : negated? ('-' :: Nat.toDigits 10 n) = some n := by
  unfold negated?
  simp only [marked?_toDigits, (isZeroPadded_toDigits n).2, Numeral.ofDigits?_toDigits]
  rfl

end Digits

theorem unsigned?_minus (cs : List Char) : unsigned? ('-' :: cs) = none := by
  have noDigit : Numeral.ofDigits? 10 ('-' :: cs) = none := by
    have : Numeral.digitValue? 10 '-' = none := by decide
    simp [Numeral.ofDigits?, Numeral.ofDigitsFrom?, this]
  simp [unsigned?, dropPlus, marked?, noDigit]

/-! ## Numerals -/

theorem toList_decimal (n : Int) : (decimal n).toList =
    if n < 0 then '-' :: Nat.toDigits 10 n.natAbs else Nat.toDigits 10 n.natAbs := by
  unfold decimal
  split_ifs <;> simp

theorem decimal_ne_empty (n : Int) : decimal n ≠ "" := by
  intro h
  have chars := congrArg String.toList h
  rw [toList_decimal] at chars
  split_ifs at chars <;> simp [Nat.toDigits_ne_nil] at chars

theorem mem_decimal {n : Int} {c : Char} (h : c ∈ (decimal n).toList) :
    c = '-' ∨ c.isDigit = true := by
  rw [toList_decimal] at h
  split_ifs at h
  · rw [List.mem_cons] at h
    exact h.imp_right Numeral.isDigit_of_mem_toDigits
  · exact .inr (Numeral.isDigit_of_mem_toDigits h)

/-- A numeral is none of some words. -/
theorem decimal_notMem {words : List String} (n : Int)
    (h : ∀ s ∈ words, s.toList.any (fun c => c ≠ '-' && !c.isDigit) = true) :
    decimal n ∉ words := by
  intro mem
  obtain ⟨c, hc, other⟩ := List.any_eq_true.1 (h _ mem)
  rcases mem_decimal hc with rfl | digit
  · simp at other
  · simp [digit] at other

theorem isNull_decimal (n : Int) : isNull (decimal n) = false := by
  have words : decimal n ∉ ["null", "Null", "NULL", "~"] := decimal_notMem n (by decide +kernel)
  simp only [List.mem_cons, List.not_mem_nil, or_false, not_or] at words
  simp [isNull, words]

theorem bool?_decimal (n : Int) : bool? (decimal n) = none := by
  have words : decimal n ∉ ["true", "True", "TRUE", "false", "False", "FALSE"] :=
    decimal_notMem n (by decide +kernel)
  simp only [List.mem_cons, List.not_mem_nil, or_false, not_or] at words
  simp [bool?, words]

theorem integer?_decimal {n : Int} (low : -(1 <<< 127) ≤ n) (high : n < 1 <<< 128) :
    integer? (decimal n).toList = some n := by
  rw [toList_decimal]
  unfold integer?
  split_ifs with negative
  · rw [unsigned?_minus, negated?_toDigits]
    have bound : n.natAbs ≤ 1 <<< 127 := by omega
    simp only [if_pos bound]
    congr 1
    omega
  · rw [unsigned?_toDigits]
    have bound : n.natAbs < 1 <<< 128 := by omega
    simp only [if_pos bound]
    congr 1
    omega

theorem fits64_iff {n : Int} :
    fits64 n = true ↔ -9223372036854775808 ≤ n ∧ n < 18446744073709551616 := by
  have low : Int64.minValue.toInt = -9223372036854775808 := by decide
  simp [fits64, low]

theorem integer?_decimal_of_fits64 {n : Int} (h : fits64 n = true) :
    integer? (decimal n).toList = some n := by
  obtain ⟨low, high⟩ := fits64_iff.1 h
  exact integer?_decimal (by simp; omega) (by simp; omega)

/-- The numeral of an integer of 64 bits stands for it. -/
theorem meaning_decimal {n : Int} (h : fits64 n = true) : meaning (decimal n) = .int n := by
  unfold meaning
  simp [decimal_ne_empty, isNull_decimal, bool?_decimal, integer?_decimal_of_fits64 h, h]

end LogForwarder.Yaml
