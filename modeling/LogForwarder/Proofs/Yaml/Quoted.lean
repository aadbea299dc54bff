import LogForwarder.Proofs.Number.Numeral
import LogForwarder.Proofs.Yaml.Char
import LogForwarder.Yaml.Scalar.Quoted
import Mathlib.Tactic.SplitIfs

/-!
# Quoted scalars read back

Double quotes keep every text, and single quotes keep those that `singleAllowed` finds without line
feeds.

1. `readDouble_escape` reads one character back from its escape, and `readDouble_flatMap_escape` a
   whole text.
2. `readSingle_indented` reads a text in single quotes back, whichever other line ends it holds.
-/

namespace LogForwarder.Yaml

/-! ## Codes of characters -/

theorem length_hex {width n : Nat} (hw : 0 < width) (h : n < 16 ^ width) :
    (hex width n).length = width := by
  have short : (Nat.toDigits 16 n).length ≤ width :=
    (Nat.length_toDigits_le_iff (by decide) hw).2 h
  simp only [hex, List.length_append, List.length_replicate, List.length_map]
  omega

theorem ofDigits?_hex {width n : Nat} : Numeral.ofDigits? 16 (hex width n) = some n := by
  have digits : hex width n ≠ [] := by simp [hex, Nat.toDigits_ne_nil]
  rw [Numeral.ofDigits?_eq digits, hex, Numeral.ofDigitsFrom?_zeros (by decide)]
  exact Numeral.ofDigitsFrom?_map_toDigits (by decide)
    (fun d hd => Numeral.digitValue?_toUpper_digitChar (by decide) hd) n

theorem toNat_range (c : Char) :
    c.toNat < 0xD800 ∨ (0xDFFF < c.toNat ∧ c.toNat ≤ 0x10FFFF) := by
  have valid : c.toNat < 0xD800 ∨ (0xDFFF < c.toNat ∧ c.toNat < 0x110000) := c.valid
  omega

theorem coded?_hex (width : Nat) (c : Char) : coded? (hex width c.toNat) = some c := by
  have valid := toNat_range c
  unfold coded?
  rw [ofDigits?_hex]
  simp [valid, Char.ofNat_toNat]

/-! ## Escapes -/

/-- The characters after a backslash that are short escapes and are written as they are. -/
def IsShort (d : Char) : Prop :=
  d ∉ ['x', 'u', 'U'] ∧ isPrintable d = true ∧ isBreak d = false

instance (d : Char) : Decidable (IsShort d) := by unfold IsShort; infer_instance

/-- A character is written with a short escape, as itself, or as a code of two or four digits:
those with a longer code are printable. -/
theorem escape_induction {P : List Char → Prop} (c : Char)
    (short : ∀ d, escaped? d = some c → IsShort d → P ['\\', d])
    (self : isPrintable c = true → isBreak c = false → c ∉ ['"', '\\'] → P [c])
    (two : c.toNat < 16 ^ 2 → P ('\\' :: 'x' :: hex 2 c.toNat))
    (four : c.toNat < 16 ^ 4 → P ('\\' :: 'u' :: hex 4 c.toNat)) : P (escape c) := by
  have named : ∀ {n : Nat} {d : Char} {other : List Char}, escaped? d = some (Char.ofNat n) →
      IsShort d → (c.toNat ≠ n → P other) → P (if c.toNat == n then ['\\', d] else other) := by
    intro n d other h hd hother
    by_cases code : c.toNat = n
    · rw [← code, Char.ofNat_toNat] at h
      rw [if_pos (beq_iff_eq.2 code)]
      exact short d h hd
    · rw [if_neg (by simpa using code)]
      exact hother code
  unfold escape
  -- the characters with an escape of their own, in the order of the definition
  iterate 12 refine named rfl (by decide) fun _ => ?_
  have noBreak : isBreak c = false := by
    have lf : c ≠ '\n' := by rintro rfl; contradiction
    have cr : c ≠ '\r' := by rintro rfl; contradiction
    simp_all [isBreak]
  by_cases quote : c = '"' ∨ c = '\\'
  · rw [if_pos (by simpa using quote)]
    rcases quote with rfl | rfl <;> exact short _ rfl (by decide)
  rw [if_neg (by simpa using quote)]
  by_cases printable : isPrintable c = true
  · rw [if_pos printable]
    exact self printable noBreak (by simpa using quote)
  have small : c.toNat < 0x10000 := by
    simp only [isPrintable, Bool.or_eq_true, decide_eq_true_eq, not_or] at printable
    omega
  rw [if_neg printable]
  split
  · exact two (by omega)
  · rw [if_pos (by omega)]
    exact four (by omega)

/-! ## Double quotes -/

section Double

variable {blanks rest : List Char} {c : Char}

/-- What reading gives when a character was read before `rest`. -/
def afterChar (blanks : List Char) (c : Char) (rest : List Char) :
    Option (List Char × List Char) :=
  (readDouble {} rest).map fun (text, rest) => (blanks ++ c :: text, rest)

theorem readDouble_short {d : Char} (h : escaped? d = some c) (hd : IsShort d) :
    readDouble { blanks } ('\\' :: d :: rest) = afterChar blanks c rest := by
  obtain ⟨other, -, noBreak⟩ := hd
  simp only [List.mem_cons, List.not_mem_nil, or_false, not_or] at other
  have noGap : isGap '\\' = false := by decide
  rw [readDouble]
  · simp [noGap, Gap.atLineStart, Gap.text, noBreak, h, afterChar]
  · exact fun _ _ _ eq => absurd eq other.1
  · exact fun _ _ _ _ _ eq => absurd eq other.2.1
  · exact fun _ _ _ _ _ _ _ _ _ eq => absurd eq other.2.2

theorem readDouble_two {d₁ d₂ : Char} (h : coded? [d₁, d₂] = some c) :
    readDouble { blanks } ('\\' :: 'x' :: d₁ :: d₂ :: rest) = afterChar blanks c rest := by
  rw [readDouble]
  simp [isGap, isBlank, isBreak, Gap.atLineStart, Gap.text, h, afterChar]

theorem readDouble_four {d₁ d₂ d₃ d₄ : Char} (h : coded? [d₁, d₂, d₃, d₄] = some c) :
    readDouble { blanks } ('\\' :: 'u' :: d₁ :: d₂ :: d₃ :: d₄ :: rest) =
      afterChar blanks c rest := by
  rw [readDouble]
  simp [isGap, isBlank, isBreak, Gap.atLineStart, Gap.text, h, afterChar]

theorem readDouble_self (hg : isGap c = false) (hc : c ≠ '"' ∧ c ≠ '\\') :
    readDouble { blanks } (c :: rest) = afterChar blanks c rest := by
  have noMark : (Gap.atLineStart { blanks } && atDocumentMark (c :: rest)) = false := rfl
  rw [readDouble.eq_def]
  dsimp only
  rw [hg, if_neg Bool.false_ne_true, noMark, if_neg Bool.false_ne_true, if_neg hc.1, if_neg hc.2]
  rfl

/-- Every character but the space, which extends a gap, is read back from what is written of it. -/
theorem readDouble_escape (hc : c ≠ ' ') :
    readDouble { blanks } (escape c ++ rest) = afterChar blanks c rest := by
  refine escape_induction (P := fun xs => readDouble { blanks } (xs ++ rest) = _) c ?_ ?_ ?_ ?_
  · exact fun d h hd => readDouble_short h hd
  · intro printable noBreak other
    refine readDouble_self ?_ (by simpa using other)
    rw [Bool.eq_false_iff]
    exact fun gap => hc ((isGap_iff printable noBreak).1 gap)
  · intro small
    have coded := coded?_hex 2 c
    match hex 2 c.toNat, length_hex (by decide) small, coded with
    | [_, _], _, coded => exact readDouble_two coded
  · intro small
    have coded := coded?_hex 4 c
    match hex 4 c.toNat, length_hex (by decide) small, coded with
    | [_, _, _, _], _, coded => exact readDouble_four coded

/-- A text is read back from its escapes. -/
theorem readDouble_flatMap_escape (cs blanks rest : List Char) :
    readDouble { blanks } (cs.flatMap escape ++ '"' :: rest) = some (blanks ++ cs, rest) := by
  induction cs generalizing blanks with
  | nil =>
    rw [List.flatMap_nil, List.nil_append, readDouble.eq_def]
    simp [isGap, isBlank, isBreak, Gap.atLineStart, Gap.text]
  | cons c cs ih =>
    rw [List.flatMap_cons, List.append_assoc]
    by_cases space : c = ' '
    · subst space
      rw [show escape ' ' = [' '] from rfl, List.singleton_append, readDouble.eq_def]
      simpa [isGap, isBlank, isBreak, Gap.push] using ih (blanks ++ [' '])
    · rw [readDouble_escape space, afterChar, ih]
      simp

end Double

/-! ## Single quotes -/

theorem hasNeighbours_cons {first second : Char → Bool} {c : Char} {cs : List Char} :
    hasNeighbours first second (c :: cs) =
      ((first c && cs.head?.any second) || hasNeighbours first second cs) := by
  cases cs <;> simp [hasNeighbours]

theorem elim_getLast?_cons {α : Type} (b : α) (f : Char → α) (c : Char) (cs : List Char) :
    (c :: cs).getLast?.elim b f = cs.getLast?.elim (f c) f := by
  cases cs with
  | nil => rfl
  | cons d cs =>
    rw [List.getLast?_cons_cons, List.getLast?_eq_some_getLast (List.cons_ne_nil d cs)]
    rfl

section Single

variable {indent : Nat} {gap : Gap} {rest : List Char}

theorem readSingle_gap {c : Char} (h : isGap c = true) :
    readSingle gap (c :: rest) = readSingle (gap.push c) rest := by
  rw [readSingle.eq_def]
  simp [h]

theorem readSingle_pad (breaks : List Char) (column count : Nat) :
    readSingle { breaks, column? := some column } (pad count ++ rest) =
      readSingle { breaks, column? := some (column + count) } rest := by
  induction count generalizing column with
  | zero => rfl
  | succ count ih =>
    rw [pad, List.replicate_succ, List.cons_append, readSingle_gap (by decide)]
    have read := ih (column + 1)
    rw [Nat.add_assoc, Nat.add_comm 1 count] at read
    exact read

theorem readSingle_word {c : Char} (noGap : isGap c = false) (start : gap.atLineStart = false) :
    readSingle gap (doubleQuotes [c] ++ rest) =
      (readSingle {} rest).map fun (text, rest) => (gap.text ++ c :: text, rest) := by
  by_cases quote : c = '\''
  · subst quote
    rw [doubleQuotes, if_pos rfl, doubleQuotes, List.cons_append, List.singleton_append,
      readSingle.eq_def]
    simp [noGap, start]
  · rw [doubleQuotes, if_neg quote, doubleQuotes, List.singleton_append, readSingle.eq_def]
    simp [noGap, start, quote]

theorem readSingle_end (start : gap.atLineStart = false) (more : rest.head? ≠ some '\'') :
    readSingle gap ('\'' :: rest) = some (gap.text, rest) := by
  have noGap : isGap '\'' = false := by decide
  rw [readSingle.eq_def]
  simp only [noGap, start]
  cases rest with
  | nil => rfl
  | cons d rest =>
    have ne : d ≠ '\'' := by simpa using more
    simp [ne]

theorem indented_word {c : Char} (noBreak : isBreak c = false) (fresh : Bool) (cs : List Char) :
    indented indent fresh (doubleQuotes (c :: cs)) =
      (if fresh then pad indent else []) ++ doubleQuotes [c] ++
        indented indent false (doubleQuotes cs) := by
  by_cases quote : c = '\''
  · subst quote
    simp [doubleQuotes, indented, noBreak]
  · simp [doubleQuotes, indented, noBreak, quote]

theorem indented_break {c : Char} (h : isBreak c = true) (fresh : Bool) (cs : List Char) :
    indented indent fresh (doubleQuotes (c :: cs)) =
      c :: indented indent true (doubleQuotes cs) := by
  have quote : c ≠ '\'' := by rintro rfl; exact absurd h (by decide)
  simp [doubleQuotes, indented, h, quote]

/-- What stands between the last word and a text: blanks inside a line, where no line end follows,
or line ends, where no blank does. -/
inductive Between (cs : List Char) : Bool → Gap → Prop where
  | blanks (blanks : List Char) (h : blanks ≠ [] → cs.head?.any isBreak = false) :
      Between cs false { blanks }
  | breaks (d : Char) (ds : List Char) (hd : d ≠ '\n') (h : cs.head?.any isSpace = false) :
      Between cs true { breaks := d :: ds, column? := some 0 }

namespace Between

variable {c : Char} {cs : List Char} {fresh : Bool}

theorem push_break (h : Between (c :: cs) fresh gap) (ends : isBreak c = true) (feed : c ≠ '\n')
    (after : cs.head?.any isSpace = false) :
    Between cs true (gap.push c) ∧ (gap.push c).text = gap.text ++ [c] := by
  cases h with
  | blanks blanks hb =>
    have none : blanks = [] := by simpa [ends] using hb
    subst none
    have push : Gap.push {} c = { breaks := [c], column? := some 0 } := by simp [Gap.push, ends]
    rw [push]
    refine ⟨.breaks c [] feed after, ?_⟩
    simp [Gap.text, foldBreaks, feed]
  | breaks d ds hd =>
    have push : Gap.push { breaks := d :: ds, column? := some 0 } c =
        { breaks := d :: (ds ++ [c]), column? := some 0 } := by simp [Gap.push, ends]
    rw [push]
    refine ⟨.breaks d (ds ++ [c]) hd after, ?_⟩
    simp [Gap.text, foldBreaks, hd]

theorem push_space (h : Between (' ' :: cs) fresh gap) (after : cs.head?.any isBreak = false) :
    fresh = false ∧ Between cs false (gap.push ' ') ∧
      (gap.push ' ').text = gap.text ++ [' '] := by
  cases h with
  | blanks blanks => exact ⟨rfl, .blanks (blanks ++ [' ']) fun _ => after, rfl⟩
  | breaks d ds hd h => simp [isSpace] at h

/-- After the indentation a gap is not at the start of its line any more, and no other one is. -/
theorem readSingle_pad (h : Between cs fresh gap) (hi : 0 < indent) (rest : List Char) :
    ∃ gap' : Gap, gap'.atLineStart = false ∧ gap'.text = gap.text ∧
      readSingle gap ((if fresh then pad indent else []) ++ rest) = readSingle gap' rest := by
  cases h with
  | blanks blanks => exact ⟨{ blanks }, rfl, rfl, rfl⟩
  | breaks d ds =>
    refine ⟨{ breaks := d :: ds, column? := some (0 + indent) }, ?_, rfl, ?_⟩
    · simp [Gap.atLineStart]
      omega
    · exact Yaml.readSingle_pad (d :: ds) 0 indent

end Between

/-- A text without line feeds is read back from single quotes when no blank in it stands next to a
line end. -/
theorem readSingle_indented (hi : 0 < indent) (more : rest.head? ≠ some '\'') {cs : List Char}
    (printable : ∀ c ∈ cs, isPrintable c = true) (noFeed : '\n' ∉ cs)
    (noTrailing : hasNeighbours isSpace isBreak cs = false)
    (noLeading : hasNeighbours isBreak isSpace cs = false) {fresh : Bool}
    (between : Between cs fresh gap) :
    readSingle gap (indented indent fresh (doubleQuotes cs) ++
      ((if cs.getLast?.elim fresh isBreak then pad indent else []) ++ '\'' :: rest)) =
      some (gap.text ++ cs, rest) := by
  induction cs generalizing fresh gap with
  | nil =>
    obtain ⟨gap', start, text, read⟩ := between.readSingle_pad hi ('\'' :: rest)
    show readSingle gap ((if fresh then pad indent else []) ++ '\'' :: rest) = _
    rw [read, readSingle_end start more, text, List.append_nil]
  | cons c cs ih =>
    rw [hasNeighbours_cons, Bool.or_eq_false_iff] at noTrailing noLeading
    rw [elim_getLast?_cons]
    have ih {fresh : Bool} {gap : Gap} (between : Between cs fresh gap) :=
      ih (fun d hd => printable d (List.mem_cons_of_mem c hd))
        (fun h => noFeed (List.mem_cons_of_mem c h)) noTrailing.2 noLeading.2 between
    by_cases ends : isBreak c = true
    · have feed : c ≠ '\n' := fun h => noFeed (h ▸ List.mem_cons_self)
      have after : cs.head?.any isSpace = false := by simpa [ends] using noLeading.1
      obtain ⟨between, text⟩ := between.push_break ends feed after
      rw [indented_break ends, ends, List.cons_append, readSingle_gap (by simp [isGap, ends]),
        ih between, text]
      simp
    rw [Bool.not_eq_true] at ends
    rw [indented_word ends, ends]
    by_cases space : c = ' '
    · subst space
      have after : cs.head?.any isBreak = false := by simpa [isSpace] using noTrailing.1
      obtain ⟨rfl, between, text⟩ := between.push_space after
      have read := ih between
      rw [text, ← readSingle_gap (by decide)] at read
      simpa [doubleQuotes] using read
    · have noGap : isGap c = false := by
        rw [Bool.eq_false_iff]
        exact fun h => space ((isGap_iff (printable c List.mem_cons_self) ends).1 h)
      simp only [List.append_assoc]
      obtain ⟨gap', start, text, read⟩ := between.readSingle_pad hi _
      rw [read, readSingle_word noGap start, ih (.blanks [] (by simp)), text]
      simp [Gap.text]

end Single

end LogForwarder.Yaml
