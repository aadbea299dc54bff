import LogForwarder.Proofs.Number.Literal
import LogForwarder.Schema.OfNode

/-!
# Integers without a minus sign

Which unquoted scalars spell a whole number, said without the reader: decimal digits without
padding, or digits of another radix after its mark, and in front of either perhaps a plus sign
(`SpellsUnsigned`, `unsigned?_eq_some_iff`). A member that holds an integer without a sign is read
from these and no others, if they are small enough (`readInteger_unsigned32_iff`).
-/

namespace LogForwarder

namespace Numeral

variable {radix d n : Nat} {c : Char} {cs : List Char}

/-! ## Digits of any radix -/

/-- Whether a character is a digit of a value, with a letter in either case. -/
def IsDigit (radix : Nat) (c : Char) (d : Nat) : Prop :=
  d < radix ∧ (c = d.digitChar ∨ c = d.digitChar.toUpper)

/-- Whether digits spell a number, place by place. -/
inductive Written (radix : Nat) : List Char → Nat → Prop where
  | one {c : Char} {d : Nat} (h : IsDigit radix c d) : Written radix [c] d
  | append {cs : List Char} {n : Nat} {c : Char} {d : Nat} (hn : Written radix cs n)
      (h : IsDigit radix c d) : Written radix (cs ++ [c]) (n * radix + d)

instance : Decidable (IsDigit radix c d) := by
  unfold IsDigit
  infer_instance

theorem toNat_lt_of_digitValue? (h : digitValue? radix c = some d) : c.toNat < 128 := by
  by_contra hlarge
  have hnone : ∀ low high : Char, high.toNat < 128 → ¬(low ≤ c ∧ c ≤ high) := by
    rintro low high hhigh ⟨-, hle⟩
    have : c.toNat ≤ high.toNat := hle
    omega
  unfold digitValue? at h
  rw [if_neg (hnone _ _ (by decide)), if_neg (hnone _ _ (by decide)),
    if_neg (hnone _ _ (by decide))] at h
  simp at h

/-- All characters that might be digits are looked at. -/
theorem isDigit_of_digitValue? : ∀ k < 128, ∀ d < 16,
    digitValue? 16 (Char.ofNat k) = some d → IsDigit 16 (Char.ofNat k) d := by
  decide +kernel

theorem digitValue?_eq_some_iff (hr : radix ≤ 16) :
    digitValue? radix c = some d ↔ IsDigit radix c d := by
  constructor
  · intro h
    have hsmall := toNat_lt_of_digitValue? h
    obtain ⟨hvalue, hd⟩ := Option.filter_eq_some_iff.mp h
    have hd : d < radix := by simpa using hd
    have hwide : digitValue? 16 c = some d :=
      Option.filter_eq_some_iff.mpr ⟨hvalue, by simp; omega⟩
    rw [← Char.ofNat_toNat c] at hwide
    have hdigit := isDigit_of_digitValue? c.toNat hsmall d (by omega) hwide
    rw [Char.ofNat_toNat] at hdigit
    exact ⟨hd, hdigit.2⟩
  · rintro ⟨hd, rfl | rfl⟩
    · exact digitValue?_digitChar hr hd
    · exact digitValue?_toUpper_digitChar hr hd

theorem ofDigitsFrom?_append_singleton (high : Nat) (cs : List Char) (c : Char) :
    ofDigitsFrom? radix high (cs ++ [c]) =
      (ofDigitsFrom? radix high cs).bind fun n => (digitValue? radix c).map fun d =>
        n * radix + d := by
  rw [ofDigitsFrom?_append]
  refine congrArg _ (funext fun n => ?_)
  rw [ofDigitsFrom?]
  cases digitValue? radix c <;> simp [ofDigitsFrom?]

/-- The number that digits spell is read off place by place. -/
theorem ofDigits?_eq_some_iff (hr : radix ≤ 16) :
    ofDigits? radix cs = some n ↔ Written radix cs n := by
  constructor
  · intro h
    induction cs using List.reverseRec generalizing n with
    | nil => cases h
    | append_singleton cs c ih =>
      rw [ofDigits?_eq (by simp), ofDigitsFrom?_append_singleton, Option.bind_eq_some_iff] at h
      obtain ⟨high, hhigh, h⟩ := h
      obtain ⟨d, hd, rfl⟩ := Option.map_eq_some_iff.mp h
      have hdigit := (digitValue?_eq_some_iff hr).mp hd
      by_cases hempty : cs = []
      · subst hempty
        cases hhigh
        rw [Nat.zero_mul, Nat.zero_add]
        exact .one hdigit
      · exact .append (ih (by rwa [ofDigits?_eq hempty])) hdigit
  · intro h
    induction h with
    | @one c d h =>
      rw [ofDigits?_eq (List.cons_ne_nil c []), ofDigitsFrom?, (digitValue?_eq_some_iff hr).mpr h]
      simp [ofDigitsFrom?]
    | @append cs n c d hn h ih =>
      have hempty : cs ≠ [] := by
        rintro rfl
        cases ih
      rw [ofDigits?_eq hempty] at ih
      rw [ofDigits?_eq (by simp), ofDigitsFrom?_append_singleton, ih,
        (digitValue?_eq_some_iff hr).mpr h]
      rfl

theorem isDigit_of_mem_written (h : Written 10 cs n) : ∀ c ∈ cs, c.isDigit = true := by
  have hone {c : Char} {d : Nat} (h : IsDigit 10 c d) : c.isDigit = true := by
    obtain ⟨hd, rfl | rfl⟩ := h <;> interval_cases d <;> decide
  induction h with
  | one h =>
    rw [List.forall_mem_singleton]
    exact hone h
  | append _ h ih =>
    rw [List.forall_mem_append, List.forall_mem_singleton]
    exact ⟨ih, hone h⟩

end Numeral

namespace Yaml

open Numeral (IsWhole Written isDigit_of_mem_written)

variable {cs body : List Char} {n : Nat}

/-! ## Integers -/

/-- The mark in front of the digits of a radix, after a zero. -/
def radixMarks : List (Char × Nat) := [('x', 16), ('o', 8), ('b', 2)]

/-- Whether characters are a whole number: its decimal digits without padding, or digits of another
radix after its mark. -/
inductive SpellsWhole : List Char → Nat → Prop where
  | decimal {n : Nat} : SpellsWhole (Nat.toDigits 10 n) n
  | marked {mark : Char} {radix n : Nat} {digits : List Char} (hmark : (mark, radix) ∈ radixMarks)
      (h : Written radix digits n) : SpellsWhole ('0' :: mark :: digits) n

/-- Whether a scalar is a whole number, perhaps after a plus sign. -/
def SpellsUnsigned (s : String) (n : Nat) : Prop :=
  ∃ body, SpellsWhole body n ∧ (s.toList = body ∨ s.toList = '+' :: body)

theorem marked?_eq_some_iff : marked? body = some n ↔
    ∃ mark radix digits, (mark, radix) ∈ radixMarks ∧ body = '0' :: mark :: digits ∧
      Written radix digits n := by
  constructor
  · intro h
    unfold marked? at h
    split at h
    · exact ⟨_, _, _, by decide, rfl, (Numeral.ofDigits?_eq_some_iff (by decide)).mp h⟩
    · exact ⟨_, _, _, by decide, rfl, (Numeral.ofDigits?_eq_some_iff (by decide)).mp h⟩
    · exact ⟨_, _, _, by decide, rfl, (Numeral.ofDigits?_eq_some_iff (by decide)).mp h⟩
    · cases h
  · rintro ⟨mark, radix, digits, hmark, rfl, h⟩
    simp only [radixMarks, List.mem_cons, Prod.mk.injEq, List.not_mem_nil, or_false] at hmark
    rcases hmark with ⟨rfl, rfl⟩ | ⟨rfl, rfl⟩ | ⟨rfl, rfl⟩ <;>
      exact (Numeral.ofDigits?_eq_some_iff (by decide)).mpr h

/-- Digits that are not padded are those of a whole number. -/
theorem isWhole_of_not_isZeroPadded (hne : cs ≠ []) (hdigits : ∀ c ∈ cs, c.isDigit = true)
    (h : isZeroPadded cs = false) : IsWhole cs where
  nonempty := hne
  digits := hdigits
  unpadded hzero := by
    obtain ⟨c, cs, rfl⟩ := List.exists_cons_of_ne_nil hne
    obtain rfl : c = '0' := by simpa using hzero
    cases cs with
    | nil => rfl
    | cons d cs =>
      have hall : (d :: cs).all Char.isDigit = true :=
        List.all_eq_true.mpr fun c hc => hdigits c (List.mem_cons_of_mem _ hc)
      exact absurd (hall.symm.trans h) (by decide)

/-- What follows a plus sign, if there is one, is read as a whole number. -/
theorem unsigned?_eq_some_iff_of_dropPlus (hbody : dropPlus cs = body)
    (hpadded : (∀ c ∈ body, c.isDigit = true) → isZeroPadded cs = isZeroPadded body) :
    unsigned? cs = some n ↔ SpellsWhole body n := by
  unfold unsigned?
  rw [hbody]
  cases hmarked : marked? body with
  | some k =>
    obtain ⟨mark, radix, digits, hmark, rfl, h⟩ := marked?_eq_some_iff.mp hmarked
    constructor
    · rintro ⟨⟩
      exact .marked hmark h
    · intro hspells
      generalize hb : '0' :: mark :: digits = b at hspells hmarked
      cases hspells with
      | decimal => rw [marked?_toDigits] at hmarked; cases hmarked
      | marked hmark' h' =>
        exact hmarked.symm.trans (marked?_eq_some_iff.mpr ⟨_, _, _, hmark', rfl, h'⟩)
  | none =>
    constructor
    · intro h
      dsimp only at h
      split_ifs at h with hzeros
      have hdigits := isDigit_of_mem_written ((Numeral.ofDigits?_eq_some_iff (by decide)).mp h)
      have hne : body ≠ [] := by
        rintro rfl
        cases h
      have hunpadded := (hpadded hdigits).symm.trans (Bool.eq_false_iff.mpr hzeros)
      obtain ⟨m, rfl⟩ := (isWhole_of_not_isZeroPadded hne hdigits hunpadded).exists_eq_toDigits
      rw [Numeral.ofDigits?_toDigits] at h
      cases h
      exact .decimal
    · intro h
      cases h with
      | decimal =>
        dsimp only
        rw [hpadded fun _ => Numeral.isDigit_of_mem_toDigits, (isZeroPadded_toDigits n).1,
          if_neg Bool.false_ne_true, Numeral.ofDigits?_toDigits]
      | marked hmark h =>
        cases hmarked.symm.trans (marked?_eq_some_iff.mpr ⟨_, _, _, hmark, rfl, h⟩)

theorem head?_ne_plus_of_spellsWhole (h : SpellsWhole body n) : body.head? ≠ some '+' := by
  cases h with
  | decimal => exact head?_toDigits_ne_sign n (by decide)
  | marked => simp

theorem unsigned?_eq_some_iff {s : String} : unsigned? s.toList = some n ↔ SpellsUnsigned s n := by
  unfold SpellsUnsigned
  by_cases hplus : s.toList.head? = some '+'
  · obtain ⟨body, hs⟩ := List.head?_eq_some_iff.mp hplus
    have hpadded (hdigits : ∀ c ∈ body, c.isDigit = true) :
        isZeroPadded ('+' :: body) = isZeroPadded body := by
      cases body with
      | nil => rfl
      | cons c body =>
        have hc := hdigits c List.mem_cons_self
        have hminus : c ≠ '-' := by rintro rfl; exact absurd hc (by decide)
        have hplus : c ≠ '+' := by rintro rfl; exact absurd hc (by decide)
        simp [isZeroPadded, hminus, hplus]
    have hdrop : dropPlus ('+' :: body) = body := rfl
    rw [hs, unsigned?_eq_some_iff_of_dropPlus hdrop hpadded]
    constructor
    · exact fun h => ⟨body, h, .inr rfl⟩
    · rintro ⟨_, h, rfl | ⟨⟨⟩⟩⟩
      · exact absurd rfl (head?_ne_plus_of_spellsWhole h)
      · exact h
  · have hdrop : dropPlus s.toList = s.toList := by
      unfold dropPlus
      split
      · rename_i heq
        exact absurd (by rw [heq]; rfl) hplus
      · rfl
    rw [unsigned?_eq_some_iff_of_dropPlus hdrop fun _ => rfl]
    constructor
    · exact fun h => ⟨_, h, .inl rfl⟩
    · rintro ⟨body, h, hs | hs⟩
      · rwa [hs]
      · exact absurd (by rw [hs]; rfl) hplus

theorem wideInteger?_unsigned32_eq_some_iff {s : String} {i : Int} :
    wideInteger? .unsigned32 s = some i ↔ ∃ n, SpellsUnsigned s n ∧ n < UInt64.size ∧ i = n := by
  unfold wideInteger?
  simp only [Option.filter_eq_some_iff, Option.map_eq_some_iff, unsigned?_eq_some_iff,
    decide_eq_true_eq]
  constructor
  · rintro ⟨⟨n, hn, rfl⟩, hlt⟩
    exact ⟨n, hn, Int.ofNat_lt.mp hlt, rfl⟩
  · rintro ⟨n, hn, hlt, rfl⟩
    exact ⟨⟨n, hn, rfl⟩, Int.ofNat_lt.mpr hlt⟩

/-- **An integer of 32 bits without a sign is read from what spells one of them, and from nothing
else.** -/
theorem readInteger_unsigned32_iff {s : String} {z : Value} :
    readInteger .unsigned32 none .plain s = .ok z ↔
      ∃ n, SpellsUnsigned s n ∧ n < UInt32.size ∧ z = .int n := by
  have hsmall {n : Nat} : IntegerKind.unsigned32.holds n = true ↔ n < UInt32.size := by
    simp [IntegerKind.holds]
  have hspells : maySpell intTag none .plain = true := rfl
  unfold readInteger
  rw [if_pos hspells]
  constructor
  · intro h
    split at h
    · rename_i i hwide
      obtain ⟨n, hn, -, rfl⟩ := wideInteger?_unsigned32_eq_some_iff.mp hwide
      split_ifs at h with hholds
      cases h
      exact ⟨n, hn, hsmall.mp hholds, rfl⟩
    · cases h
  · rintro ⟨n, hn, hlt, rfl⟩
    have hsizes : UInt32.size < UInt64.size := by decide
    have hwide := wideInteger?_unsigned32_eq_some_iff.mpr ⟨n, hn, hlt.trans hsizes, rfl⟩
    simp only [hwide, hsmall.mpr hlt, if_true]

end Yaml

end LogForwarder
