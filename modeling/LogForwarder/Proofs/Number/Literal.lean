import LogForwarder.Json
import LogForwarder.Proofs.Yaml.Scalar
import Mathlib.Data.List.Induction
import Mathlib.Data.List.TakeWhile

/-!
# Canonical numerals and literals

Which texts are the numerals of whole numbers and integers, and what JSON takes them for.

1. Digits of which none is a zero that could be left out are those of a whole number
   (`isWhole_iff`), and with a minus sign before all of them but a lone zero, of an integer
   (`isNumeral_iff`). What an integer is written as reads back (`int?_decimal`).
2. The literal of an integer of 64 bits is read as that integer (`readNumber_decimal`).
3. An integer that is not negative is read from its own digits and from no other literal
   (`readNumber_eq_int_iff`).
-/

namespace LogForwarder.Numeral

/-! ## Digits without padding -/

/-- Whether characters are digits, of which none is a zero that could be left out. -/
structure IsWhole (cs : List Char) : Prop where
  nonempty : cs ≠ []
  digits : ∀ c ∈ cs, c.isDigit = true
  unpadded : cs.head? = some '0' → cs = ['0']

theorem isWhole_toDigits (n : Nat) : IsWhole (Nat.toDigits 10 n) where
  nonempty := Nat.toDigits_ne_nil
  digits _ := isDigit_of_mem_toDigits
  unpadded := Yaml.eq_of_head?_toDigits n

theorem exists_digitChar_of_isDigit {c : Char} (h : c.isDigit = true) :
    ∃ d < 10, c = d.digitChar := by
  have hrange : 48 ≤ c.toNat ∧ c.toNat ≤ 57 := by
    rw [Char.isDigit, Bool.and_eq_true, decide_eq_true_eq, decide_eq_true_eq] at h
    exact h
  refine ⟨c.toNat - 48, by omega, ?_⟩
  obtain ⟨hlow, hhigh⟩ := hrange
  rw [← Char.ofNat_toNat c]
  generalize c.toNat = n at *
  interval_cases n <;> rfl

/-- Digits without padding are those of a whole number. The last of them is taken off, which
leaves the one that padding would be seen at in place. -/
theorem IsWhole.exists_eq_toDigits {cs : List Char} (h : IsWhole cs) :
    ∃ n, cs = Nat.toDigits 10 n := by
  induction cs using List.reverseRec with
  | nil => exact absurd rfl h.nonempty
  | append_singleton cs c ih =>
    obtain ⟨d, hd, rfl⟩ := exists_digitChar_of_isDigit (h.digits c (by simp))
    by_cases hne : cs = []
    · exact ⟨d, by rw [hne, Nat.toDigits_of_lt_base hd]; rfl⟩
    have hhead : cs.head? ≠ some '0' := by
      intro hzero
      have hall := h.unpadded (by rw [List.head?_append, hzero]; rfl)
      exact hne (by simpa using congrArg List.dropLast hall)
    obtain ⟨n, rfl⟩ := ih ⟨hne, fun c hc => h.digits c (by simp [hc]), fun h => absurd h hhead⟩
    have hpos : 0 < n := by
      rw [Nat.pos_iff_ne_zero]
      rintro rfl
      exact hhead rfl
    refine ⟨10 * n + d, ?_⟩
    have hinit : (10 * n + d) / 10 = n := by omega
    have hlast : (10 * n + d) % 10 = d := by omega
    rw [Nat.toDigits_of_base_le (by decide) (by omega : 10 ≤ 10 * n + d), hinit, hlast]

theorem isWhole_iff {cs : List Char} : IsWhole cs ↔ ∃ n, cs = Nat.toDigits 10 n := by
  refine ⟨IsWhole.exists_eq_toDigits, ?_⟩
  rintro ⟨n, rfl⟩
  exact isWhole_toDigits n

/-! ## Numerals of integers -/

/-- Whether characters are a numeral in its shortest form: a lone zero has no sign. -/
inductive IsNumeral : List Char → Prop where
  | whole {cs : List Char} (h : IsWhole cs) : IsNumeral cs
  | negative {cs : List Char} (h : IsWhole cs) (hzero : cs ≠ ['0']) : IsNumeral ('-' :: cs)

theorem isNumeral_decimal (n : Int) : IsNumeral (decimal n).toList := by
  rw [Yaml.toList_decimal]
  split_ifs with hneg
  · refine .negative (isWhole_toDigits _) fun hzero => ?_
    exact head?_toDigits_ne (n := n.natAbs) (by omega) (by rw [hzero]; rfl)
  · exact .whole (isWhole_toDigits _)

/-- The shortest numerals are what integers are written as. -/
theorem isNumeral_iff {s : String} : IsNumeral s.toList ↔ ∃ n, s = decimal n := by
  constructor
  · intro h
    generalize hcs : s.toList = cs at h
    cases h with
    | whole h =>
      obtain ⟨n, rfl⟩ := h.exists_eq_toDigits
      refine ⟨n, ?_⟩
      rw [← String.toList_inj, hcs, Yaml.toList_decimal, if_neg (by omega)]
      simp
    | @negative cs h hzero =>
      obtain ⟨n, rfl⟩ := h.exists_eq_toDigits
      have hpos : n ≠ 0 := by
        rintro rfl
        exact hzero rfl
      refine ⟨-n, ?_⟩
      rw [← String.toList_inj, hcs, Yaml.toList_decimal, if_pos (by omega)]
      simp
  · rintro ⟨n, rfl⟩
    exact isNumeral_decimal n

/-- What an integer is written as reads back. -/
theorem int?_decimal (n : Int) : int? (decimal n) = some n := by
  unfold int?
  rw [Yaml.toList_decimal]
  split_ifs with hneg
  · simp only [ofDigits?_toDigits]
    change some (-(n.natAbs : Int)) = some n
    congr 1
    omega
  · split
    · next heq =>
      have := Yaml.head?_toDigits_ne_sign n.natAbs (c := '-') (by decide)
      simp [heq] at this
    · simp only [ofDigits?_toDigits, Option.map_some, Option.some.injEq, Int.ofNat_eq_natCast]
      omega

theorem decimal_injective : Function.Injective decimal := by
  intro m n h
  have hread := congrArg int? h
  rwa [int?_decimal, int?_decimal, Option.some.injEq] at hread

end LogForwarder.Numeral

namespace LogForwarder.Json

open Numeral (IsWhole decimal)

variable {negative : Bool} {cs rest : List Char} {n : Nat} {k : Int}

/-! ## Integer literals -/

theorem readDigits_eq_nil_iff {digits : List Char} :
    readDigits cs = (digits, []) ↔ digits = cs ∧ ∀ c ∈ cs, c.isDigit = true := by
  rw [readDigits, Prod.mk.injEq, List.dropWhile_eq_nil_iff]
  refine ⟨fun ⟨htake, h⟩ => ⟨?_, h⟩, fun ⟨heq, h⟩ => ⟨?_, h⟩⟩
  · rw [← htake, List.takeWhile_eq_self_iff.mpr h]
  · rw [heq, List.takeWhile_eq_self_iff.mpr h]

theorem readMagnitude_of_isWhole (h : IsWhole cs) (hn : Numeral.ofDigits? 10 cs = some n) :
    readMagnitude negative cs = some (integerValue negative n, []) := by
  have hunpadded : ¬(1 < cs.length ∧ cs.head? = some '0') := by
    rintro ⟨hlong, hzero⟩
    rw [h.unpadded hzero] at hlong
    exact absurd hlong (by decide)
  simp [readMagnitude, readDigits_eq_nil_iff.mpr ⟨rfl, h.digits⟩, hn, hunpadded, readFraction,
    readScale, guard]

theorem readNumber_toDigits (n : Nat) :
    readNumber (Nat.toDigits 10 n) = some (integerValue false n, []) := by
  have hread : readMagnitude false (Nat.toDigits 10 n) = some (integerValue false n, []) :=
    readMagnitude_of_isWhole (Numeral.isWhole_toDigits n) (Numeral.ofDigits?_toDigits n)
  unfold readNumber
  split
  · next heq =>
    have := Yaml.head?_toDigits_ne_sign n (c := '-') (by decide)
    simp [heq] at this
  · exact hread

theorem readNumber_minus_toDigits (n : Nat) :
    readNumber ('-' :: Nat.toDigits 10 n) = some (integerValue true n, []) :=
  readMagnitude_of_isWhole (Numeral.isWhole_toDigits n) (Numeral.ofDigits?_toDigits n)

/-- The literal of an integer of 64 bits is read as that integer. -/
theorem readNumber_decimal (h : Yaml.fits64 k = true) :
    readNumber (decimal k).toList = some (.int k, []) := by
  obtain ⟨hlow, hhigh⟩ := Yaml.fits64_iff.mp h
  have hmin : Int64.minValue.toInt = -9223372036854775808 := by decide
  have hsize : UInt64.size = 18446744073709551616 := rfl
  rw [Yaml.toList_decimal]
  split_ifs with hneg
  · rw [readNumber_minus_toDigits, integerValue, if_pos rfl, hmin, if_pos (by omega)]
    congr 3
    omega
  · rw [readNumber_toDigits, integerValue, if_neg (by decide), hsize, if_pos (by omega)]
    congr 3
    omega

/-! ## What is read as an integer -/

theorem integerValue_eq_int_iff : integerValue false n = .int k ↔ k = n ∧ n < UInt64.size := by
  rw [integerValue, if_neg (by decide)]
  split_ifs with hsmall
  · rw [Value.int.injEq, and_iff_left hsmall, eq_comm]
  · exact ⟨nofun, fun h => absurd h.2 hsmall⟩

theorem neg_of_integerValue_eq_int (h : integerValue true n = .int k) : k < 0 := by
  rw [integerValue, if_pos rfl] at h
  split_ifs at h with hfits
  rw [← Value.int.inj h]
  omega

theorem readFraction_eq_none (h : readFraction cs = some (none, rest)) : rest = cs := by
  unfold readFraction at h
  split at h
  · by_cases hempty : (readDigits ‹_›).1.isEmpty <;> simp [hempty] at h
  · simpa using h.symm

theorem readScale_eq_none (h : readScale cs = some (none, rest)) : rest = cs := by
  unfold readScale at h
  split at h
  · simp at h
  · simp at h
  · simpa using h.symm

/-- Only a run of digits is read as an integer: with a point or an exponent, or with a zero before
other digits, it is not. -/
theorem isWhole_of_readMagnitude (h : readMagnitude negative cs = some (.int k, [])) :
    ∃ n, IsWhole cs ∧ Numeral.ofDigits? 10 cs = some n ∧ integerValue negative n = .int k := by
  rcases hwhole : readDigits cs with ⟨whole, rest⟩
  simp only [readMagnitude, hwhole, Option.bind_eq_bind, Option.bind_eq_some_iff,
    Option.guard_eq_some'] at h
  obtain ⟨n, hn, -, hunpadded, ⟨fraction, rest'⟩, hfraction, ⟨exponent, rest''⟩, hscale, h⟩ := h
  split_ifs at h with hinteger
  · obtain ⟨rfl, rfl⟩ : fraction = none ∧ exponent = none := by simpa using hinteger
    obtain ⟨hvalue, rfl⟩ : integerValue negative n = .int k ∧ rest'' = [] := by simpa using h
    obtain rfl : [] = rest := (readScale_eq_none hscale).trans (readFraction_eq_none hfraction)
    obtain ⟨rfl, hdigits⟩ := readDigits_eq_nil_iff.mp hwhole
    have hne : whole ≠ [] := by
      rintro rfl
      simp [Numeral.ofDigits?] at hn
    refine ⟨n, ⟨hne, hdigits, fun hzero => ?_⟩, hn, hvalue⟩
    obtain ⟨c, rfl⟩ : ∃ c, whole = [c] := by
      rw [← List.length_eq_one_iff]
      have := List.length_pos_iff.mpr hne
      simp only [hzero, and_true] at hunpadded
      omega
    simpa using hzero
  · simp [Option.bind_eq_some_iff] at h

/-- **Integer literals.** An integer that is not negative is read from its own digits, and from no
other literal. -/
theorem readNumber_eq_int_iff :
    readNumber cs = some (.int n, []) ↔ cs = Nat.toDigits 10 n ∧ n < UInt64.size := by
  constructor
  · intro h
    unfold readNumber at h
    split at h
    · obtain ⟨m, -, -, hvalue⟩ := isWhole_of_readMagnitude h
      have := neg_of_integerValue_eq_int hvalue
      omega
    · obtain ⟨m, hwhole, hm, hvalue⟩ := isWhole_of_readMagnitude h
      obtain ⟨heq, hsmall⟩ := integerValue_eq_int_iff.mp hvalue
      obtain rfl : n = m := by omega
      obtain ⟨l, rfl⟩ := hwhole.exists_eq_toDigits
      rw [Numeral.ofDigits?_toDigits, Option.some.injEq] at hm
      rw [hm]
      exact ⟨rfl, hsmall⟩
  · rintro ⟨rfl, hsmall⟩
    rw [readNumber_toDigits, integerValue_eq_int_iff.mpr ⟨rfl, hsmall⟩]

end LogForwarder.Json
