import LogForwarder.Proofs.Yaml.Scalar
import LogForwarder.Proofs.Yaml.ScalarTokens
import Mathlib.Tactic.IntervalCases

/-!
# Scalars as they are written

What the writer makes of a scalar is read as one token with its text.

1. Numbers are spelled without quotes (`unquoted_decimal`, `unquoted_float`).
2. A text is read back in the style that is chosen for it (`Place.leads_text`), and so is a simple
   key before its colon (`readsNode_simpleKey`).
3. All that is written of a text is printable (`printable_textLine`).
-/

namespace LogForwarder.Yaml

/-! ## Numerals without quotes -/

/-- Whether a character occurs in the numerals that are written. -/
def IsNumeralChar (c : Char) : Prop := c.isDigit = true ∨ c ∈ ['.', 'e', '-']

/-- Whether a text begins with a digit and goes on with characters of numerals. -/
def IsMagnitude (cs : List Char) : Prop :=
  ∃ d ds, cs = d :: ds ∧ d.isDigit = true ∧ ∀ c ∈ ds, IsNumeralChar c

theorem isDigit_plain {c : Char} (h : c.isDigit = true) :
    isPrintable c = true ∧ isGap c = false ∧ c ∉ ['-', '.', '?', ':'] ∧
      isLeadingIndicator c = false := by
  have range : 48 ≤ c.toNat ∧ c.toNat ≤ 57 := by
    simpa [Char.isDigit, UInt32.le_iff_toNat_le] using h
  obtain ⟨n, code⟩ : ∃ n, c.toNat = n := ⟨_, rfl⟩
  rw [code] at range
  have char : c = Char.ofNat n := by rw [← code, Char.ofNat_toNat]
  subst char
  obtain ⟨low, high⟩ := range
  interval_cases n <;> decide

theorem IsNumeralChar.plain {c : Char} (h : IsNumeralChar c) :
    isPrintable c = true ∧ isGap c = false ∧ c ≠ ':' := by
  rcases h with h | h
  · obtain ⟨printable, gap, other, -⟩ := isDigit_plain h
    simp only [List.mem_cons, List.not_mem_nil, or_false, not_or] at other
    exact ⟨printable, gap, other.2.2.2⟩
  · simp only [List.mem_cons, List.not_mem_nil, or_false] at h
    rcases h with rfl | rfl | rfl <;> decide

theorem hasInnerIndicator_eq_false {cs : List Char} (h : ∀ c ∈ cs, IsNumeralChar c) :
    hasInnerIndicator cs = false := by
  induction cs with
  | nil => rfl
  | cons c cs ih =>
    rw [List.forall_mem_cons] at h
    obtain ⟨-, gap, colon⟩ := h.1.plain
    rw [isGap] at gap
    simp [hasInnerIndicator, gap, colon, ih h.2]

theorem unquoted_of_isNumeralChar {cs : List Char} (nonempty : cs ≠ [])
    (h : ∀ c ∈ cs, IsNumeralChar c) (noIndicator : hasIndicator cs = false) : Unquoted cs := by
  have noGap : ∀ c ∈ cs, isGap c = false := fun c mem => (h c mem).plain.2.1
  have noSpace : ' ' ∉ cs := fun mem => absurd (noGap ' ' mem) (by decide)
  refine ⟨nonempty, fun c mem => (h c mem).plain.1, fun c mem => ?_, noIndicator,
    fun first => noSpace (List.mem_of_head? first), fun last => noSpace (List.mem_of_getLast? last)⟩
  have gap := noGap c mem
  rw [isGap, Bool.or_eq_false_iff] at gap
  exact gap.2

/-- A numeral needs no quotes, with or without a minus sign. -/
theorem IsMagnitude.unquoted {cs : List Char} (h : IsMagnitude cs) :
    Unquoted cs ∧ Unquoted ('-' :: cs) := by
  obtain ⟨d, ds, rfl, digit, chars⟩ := h
  obtain ⟨-, gap, other, leading⟩ := isDigit_plain digit
  simp only [List.mem_cons, List.not_mem_nil, or_false, not_or] at other
  have all : ∀ c ∈ d :: ds, IsNumeralChar c := by
    rw [List.forall_mem_cons]
    exact ⟨.inl digit, chars⟩
  have minus : ∀ c ∈ '-' :: d :: ds, IsNumeralChar c := by
    rw [List.forall_mem_cons]
    exact ⟨.inr (by decide), all⟩
  rw [isGap] at gap
  refine ⟨unquoted_of_isNumeralChar (by simp) all ?_, unquoted_of_isNumeralChar (by simp) minus ?_⟩
  · have dash : ('-' == d) = false := by simpa using Ne.symm other.1
    have dot : ('.' == d) = false := by simpa using Ne.symm other.2.1
    simp [hasIndicator, hasInnerIndicator_eq_false all, leading, other, List.isPrefixOf, dash, dot]
  · have dash : ('-' == d) = false := by simpa using Ne.symm other.1
    simp [hasIndicator, hasInnerIndicator_eq_false minus, isLeadingIndicator, atBlankOrEnd, gap,
      List.isPrefixOf, dash]

/-! ## The numerals of numbers -/

theorem isMagnitude_of_digits {cs : List Char} (nonempty : cs ≠ [])
    (digits : ∀ c ∈ cs, c.isDigit = true) : IsMagnitude cs := by
  obtain ⟨d, ds, rfl⟩ := List.exists_cons_of_ne_nil nonempty
  rw [List.forall_mem_cons] at digits
  exact ⟨d, ds, rfl, digits.1, fun c mem => .inl (digits.2 c mem)⟩

theorem IsMagnitude.append {xs ys : List Char} (h : IsMagnitude xs)
    (more : ∀ c ∈ ys, IsNumeralChar c) : IsMagnitude (xs ++ ys) := by
  obtain ⟨d, ds, rfl, digit, chars⟩ := h
  refine ⟨d, ds ++ ys, rfl, digit, ?_⟩
  rw [List.forall_mem_append]
  exact ⟨chars, more⟩

theorem unquoted_decimal (n : Int) : Unquoted (Numeral.decimal n).toList := by
  obtain ⟨plain, minus⟩ := (isMagnitude_of_digits Nat.toDigits_ne_nil
    fun _ => Numeral.isDigit_of_mem_toDigits (n := n.natAbs)).unquoted
  rw [toList_decimal]
  split_ifs
  · exact minus
  · exact plain

section Float

variable {digits : List Char} (nonempty : digits ≠ []) (all : ∀ c ∈ digits, c.isDigit = true)

theorem isNumeralChar_zeros (count : Nat) : ∀ c ∈ List.replicate count '0', IsNumeralChar c := by
  intro c mem
  rw [List.eq_of_mem_replicate mem]
  exact .inl (by decide)

include nonempty all in
theorem isMagnitude_place (style : FloatStyle) (point : Int) :
    IsMagnitude (style.place digits point) := by
  have chars : ∀ c ∈ digits, IsNumeralChar c := fun c mem => .inl (all c mem)
  have dot : IsNumeralChar '.' := .inr (by decide)
  have zero : IsNumeralChar '0' := .inl (by decide)
  unfold FloatStyle.place
  dsimp only
  by_cases small : point ≤ 0
  · rw [if_pos small]
    refine ⟨'0', _, rfl, by decide, ?_⟩
    simp only [List.append_eq, List.nil_append, List.cons_append, List.forall_mem_cons,
      List.forall_mem_append]
    exact ⟨dot, isNumeralChar_zeros _, chars⟩
  rw [if_neg small]
  by_cases short : digits.length ≤ point.toNat
  · rw [if_pos short]
    refine ((isMagnitude_of_digits nonempty all).append (isNumeralChar_zeros _)).append ?_
    split_ifs
    · simpa using ⟨dot, zero⟩
    · simp
  · rw [if_neg short]
    have take : digits.take point.toNat ≠ [] := by
      have : point.toNat ≠ 0 := by omega
      simp [this, nonempty]
    refine (IsMagnitude.append (isMagnitude_of_digits take fun c mem =>
      all c (List.mem_of_mem_take mem)) ?_).append fun c mem => chars c (List.mem_of_mem_drop mem)
    simpa using dot

theorem isNumeralChar_exponentText (e : Int) :
    ∀ c ∈ floatStyle.exponentText e, IsNumeralChar c := by
  have digits : ∀ c ∈ Nat.toDigits 10 e.natAbs, IsNumeralChar c :=
    fun c mem => .inl (Numeral.isDigit_of_mem_toDigits mem)
  have dash : IsNumeralChar '-' := .inr (by decide)
  have sign : ∀ c ∈ (if e < 0 then ['-'] else []), IsNumeralChar c := by
    split_ifs
    · simpa using dash
    · simp
  have text : floatStyle.exponentText e = 'e' :: (if e < 0 then ['-'] else []) ++
      List.replicate (1 - (Nat.toDigits 10 e.natAbs).length) '0' ++ Nat.toDigits 10 e.natAbs := rfl
  rw [text, List.cons_append, List.cons_append, List.forall_mem_cons, List.forall_mem_append,
    List.forall_mem_append]
  exact ⟨.inr (by decide), ⟨sign, isNumeralChar_zeros _⟩, digits⟩

theorem isMagnitude_decimalText (d : Scientific) : IsMagnitude (floatStyle.decimalText d) := by
  unfold FloatStyle.decimalText
  rw [show floatStyle.positional = some (-5, 15) from rfl]
  generalize digits : FloatStyle.trimZeros (Nat.toDigits 10 d.digits) = trimmed
  have all : ∀ c ∈ trimmed.1, c.isDigit = true := by
    rw [← digits]
    exact fun c mem => Numeral.isDigit_of_mem_toDigits (List.mem_of_mem_take mem)
  obtain ⟨cs, zeros⟩ := trimmed
  dsimp only
  by_cases empty : cs = []
  · rw [if_pos (by simp [empty])]
    exact isMagnitude_place (by simp) (List.forall_mem_singleton.2 rfl) _ _
  rw [if_neg (by simp [empty])]
  split
  · exact isMagnitude_place empty all _ _
  · obtain ⟨c, cs, rfl⟩ := List.exists_cons_of_ne_nil empty
    rw [List.forall_mem_cons] at all
    have fraction : ∀ d ∈ (if (c :: cs).length = 1 then [] else '.' :: (c :: cs).drop 1),
        IsNumeralChar d := by
      split_ifs
      · simp
      · rw [List.forall_mem_cons]
        exact ⟨.inr (by decide), fun d mem => .inl (all.2 d mem)⟩
    have first : IsMagnitude [c] := ⟨c, [], rfl, all.1, by simp⟩
    exact (first.append fraction).append (isNumeralChar_exponentText _)

/-- Floating point numbers are written without quotes. -/
theorem unquoted_float (x : Binary64) : Unquoted (floatStyle.text x).toList := by
  obtain ⟨plain, minus⟩ := (isMagnitude_decimalText x.shortest).unquoted
  unfold FloatStyle.text
  split_ifs
  · exact .of_plainAllowed (by decide) (by decide)
  · exact .of_plainAllowed (by decide) (by decide)
  · exact .of_plainAllowed (by decide) (by decide)
  · simpa using minus
  · simpa using plain

end Float

/-! ## Texts in their styles -/

/-- How the token of a text is styled. -/
def Style.scalarStyle : Style → ScalarStyle
  | plain => .plain
  | single | double => .quoted
  | literal => .literal

/-- The token of a text. -/
def textToken (s : String) : Token := .scalar (styleOf s).scalarStyle s

/-- What is known of a text by its style. -/
theorem styleOf_spec (s : String) :
    match styleOf s with
    | .plain => Unquoted s.toList ∧ isAmbiguous s = false
    | .single => singleAllowed s.toList = true ∧ '\n' ∉ s.toList
    | .double => True
    | .literal => (∀ c ∈ s.toList, isPrintable c = true) ∧ '\n' ∈ s.toList := by
  unfold styleOf
  dsimp only
  split_ifs with feed literal plain single
  · simp only [literalAllowed, needsEscapes, Bool.and_eq_true, Bool.not_eq_true',
      Bool.or_eq_false_iff, Bool.not_eq_false', List.all_eq_true] at literal
    exact ⟨literal.1.1, feed⟩
  · trivial
  · rw [Bool.and_eq_true, Bool.not_eq_true'] at plain
    refine ⟨.of_plainAllowed ?_ plain.2, plain.1⟩
    intro empty
    rw [String.toList_eq_nil_iff] at empty
    subst empty
    exact absurd plain.1 (by decide)
  · exact ⟨single, feed⟩
  · trivial

/-- A text without quotes stands for nothing but a text. -/
theorem meaning_of_plain {s : String} (h : styleOf s = .plain) : meaning s = .text := by
  have spec := styleOf_spec s
  rw [h] at spec
  have clear := spec.2
  simp only [isAmbiguous, Bool.or_eq_false_iff, bne_eq_false_iff_eq] at clear
  exact clear.1

section Text

variable {s : String} {indent : Nat}

theorem beginsQuote_textChars (h : styleOf s = .single ∨ styleOf s = .double) (tail : List Char) :
    BeginsQuote (textChars indent s ++ tail) := by
  unfold textChars
  rcases h with h | h
  · rw [h]
    exact .inl rfl
  · rw [h]
    exact .inr rfl

theorem startsToken_textChars (s : String) (indent : Nat) (tail : List Char) :
    StartsToken (textChars indent s ++ tail) := by
  have spec := styleOf_spec s
  cases style : styleOf s with
  | plain =>
    rw [style] at spec
    have text : textChars indent s = s.toList := by simp [textChars, style]
    rw [text]
    exact spec.1.startsToken tail
  | single | double => exact (beginsQuote_textChars (by simp [style]) tail).startsToken
  | literal =>
    simp only [textChars, style, List.cons_append]
    exact ⟨'|', _, rfl, by decide, by decide⟩

/-- No line that begins with a text is taken for a mark. -/
theorem inLine_textChars (s : String) (indent : Nat) {d : Char} (hd : d ≠ '-' ∧ d ≠ '.')
    (tail : List Char) : Place.InLine (textChars indent s ++ d :: tail) := by
  have spec := styleOf_spec s
  cases style : styleOf s with
  | plain =>
    rw [style] at spec
    have text : textChars indent s = s.toList := by simp [textChars, style]
    rw [text]
    exact spec.1.inLine tail hd
  | single | double => exact (beginsQuote_textChars (by simp [style]) (d :: tail)).inLine
  | literal =>
    simp only [textChars, style, List.cons_append]
    exact ⟨by simp, by simp [atDocumentMark]⟩

/-- A quoted text is read as its token before anything but another quote. -/
theorem readsNode_quoted (hi : 0 < indent) (h : styleOf s = .single ∨ styleOf s = .double)
    {tail : List Char} (more : tail.head? ≠ some '\'') :
    ReadsNode (textChars indent s) tail (textToken s) := by
  have spec := styleOf_spec s
  unfold textChars textToken
  rcases h with h | h
  · rw [h] at spec ⊢
    have read := readsNode_single hi spec.1 spec.2 more
    rwa [String.ofList_toList] at read
  · rw [h]
    have read := readsNode_double s.toList tail
    rwa [String.ofList_toList] at read

end Text

namespace Place

variable {rest : List Char} {column count : Nat} {indents : List Nat} {keyAllowed : Bool}
  (emitted : List Token)

/-- A text is one token, however it is written. -/
theorem leads_text (s : String) (next : Next indents count rest) (inside : Inside indents column)
    (free : keyAllowed = true → indents.head? ≠ some column) :
    Leads ⟨textLine (innerIndent indents) s ++ (pad count ++ rest), column, indents, keyAllowed,
        emitted⟩
      ⟨rest, count, indents, true, textToken s :: emitted⟩ := by
  have spec := styleOf_spec s
  have wide : 0 < innerIndent indents := by
    unfold innerIndent
    cases indents.head? <;> simp
  unfold textLine endsLine
  cases style : styleOf s with
  | plain =>
    rw [style] at spec
    have text : textChars (innerIndent indents) s = s.toList := by simp [textChars, style]
    have leads := leads_plain emitted spec.1 next inside free
    rw [String.ofList_toList] at leads
    simpa [text, textToken, style, Style.scalarStyle] using leads
  | single | double =>
    have quoted : styleOf s = .single ∨ styleOf s = .double := by simp [style]
    have begins : BeginsQuote (textChars (innerIndent indents) s ++ []) :=
      beginsQuote_textChars quoted []
    rw [List.append_nil] at begins
    have leads := leads_quoted emitted begins (readsNode_quoted wide quoted (by simp))
      next inside free
    simpa using leads
  | literal =>
    rw [style] at spec
    have leads := leads_literal keyAllowed emitted spec.1
      (List.ne_nil_of_mem spec.2) next inside
    rw [String.ofList_toList] at leads
    simpa [textChars, textToken, style, Style.scalarStyle] using leads

end Place

/-! ## Keys -/

theorem length_le_utf8ByteSize (s : String) : s.toList.length ≤ s.utf8ByteSize := by
  suffices h : ∀ cs : List Char, cs.length ≤ (String.ofList cs).utf8ByteSize by
    simpa using h s.toList
  intro cs
  induction cs with
  | nil => exact Nat.zero_le _
  | cons c cs ih =>
    have first : (String.ofList [c]).utf8ByteSize ≠ 0 := by
      rw [ne_eq, String.utf8ByteSize_eq_zero_iff]
      simp
    have parts : String.ofList (c :: cs) = String.ofList [c] ++ String.ofList cs := by
      rw [← String.ofList_append]
      rfl
    rw [parts, String.utf8ByteSize_append, List.length_cons]
    omega

theorem hex_plain {width n : Nat} {d : Char} (h : d ∈ hex width n) :
    isPrintable d = true ∧ isBreak d = false := by
  rw [hex, List.mem_append, List.mem_map] at h
  rcases h with h | ⟨c, mem, rfl⟩
  · rw [List.eq_of_mem_replicate h]
    decide
  · obtain ⟨m, small, rfl⟩ := Numeral.eq_digitChar_of_mem_toDigits (by decide) mem
    interval_cases m <;> decide

/-- What is written of a character in double quotes is short, and is shown on one line. -/
theorem escape_plain (c : Char) :
    (escape c).length ≤ 6 ∧ ∀ d ∈ escape c, isPrintable d = true ∧ isBreak d = false := by
  have backslash : isPrintable '\\' = true ∧ isBreak '\\' = false := by decide
  refine escape_induction
    (P := fun xs => xs.length ≤ 6 ∧ ∀ d ∈ xs, isPrintable d = true ∧ isBreak d = false)
    c ?_ ?_ ?_ ?_
  · intro d _ hd
    simpa using ⟨backslash, hd.2⟩
  · intro printable noBreak _
    simpa using ⟨printable, noBreak⟩
  · intro small
    refine ⟨by simp [length_hex (by decide) small], ?_⟩
    rw [List.forall_mem_cons, List.forall_mem_cons]
    exact ⟨backslash, by decide, fun d mem => hex_plain mem⟩
  · intro small
    refine ⟨by simp [length_hex (by decide) small], ?_⟩
    rw [List.forall_mem_cons, List.forall_mem_cons]
    exact ⟨backslash, by decide, fun d mem => hex_plain mem⟩

theorem length_flatMap_escape (cs : List Char) : (cs.flatMap escape).length ≤ 6 * cs.length := by
  induction cs with
  | nil => exact Nat.zero_le _
  | cons c cs ih =>
    have := (escape_plain c).1
    rw [List.flatMap_cons, List.length_append, List.length_cons]
    omega

theorem mem_doubleQuotes {cs : List Char} {d : Char} : d ∈ doubleQuotes cs ↔ d ∈ cs := by
  induction cs with
  | nil => rfl
  | cons c cs ih =>
    rw [doubleQuotes]
    split_ifs with quote <;> simp [ih, quote]

theorem length_doubleQuotes (cs : List Char) : (doubleQuotes cs).length ≤ 2 * cs.length := by
  induction cs with
  | nil => exact Nat.zero_le _
  | cons c cs ih =>
    rw [doubleQuotes]
    split_ifs <;> simp <;> omega

section SimpleKey

variable {key : String} (simple : isSimpleKey key = true)

include simple

theorem noBreak_of_isSimpleKey : ∀ c ∈ key.toList, isBreak c = false := by
  rw [isSimpleKey, Bool.and_eq_true, Bool.not_eq_true'] at simple
  simpa using simple.1

theorem textChars_single (style : styleOf key = .single) (indent : Nat) :
    textChars indent key = ['\''] ++ doubleQuotes key.toList ++ ['\''] := by
  have noBreak := noBreak_of_isSimpleKey simple
  have lines : indented indent false (doubleQuotes key.toList) = doubleQuotes key.toList := by
    have := indented_noBreak (n := indent) (x := doubleQuotes key.toList)
      (fun c mem => noBreak c (mem_doubleQuotes.1 mem)) []
    simpa [indented] using this
  have last : key.toList.getLast?.any isBreak = false := by
    rw [Option.any_eq_false]
    exact fun c h => by simpa using noBreak c (List.mem_of_getLast? h)
  simp [textChars, style, lines, last]

theorem styleOf_ne_literal : styleOf key ≠ .literal := by
  intro style
  have spec := styleOf_spec key
  rw [style] at spec
  exact absurd (noBreak_of_isSimpleKey simple '\n' spec.2) (by decide)

/-- A simple key is written on one line, with at most 1024 characters. -/
theorem textChars_simpleKey (indent : Nat) :
    (∀ c ∈ textChars indent key, isBreak c = false) ∧ textChars indent key ≠ [] ∧
      (textChars indent key).length ≤ 1024 := by
  have noBreak := noBreak_of_isSimpleKey simple
  have size : key.utf8ByteSize ≤ 128 := by
    rw [isSimpleKey, Bool.and_eq_true, decide_eq_true_eq] at simple
    exact simple.2
  have length := length_le_utf8ByteSize key
  have spec := styleOf_spec key
  cases style : styleOf key with
  | plain =>
    rw [style] at spec
    have text : textChars indent key = key.toList := by simp [textChars, style]
    rw [text]
    exact ⟨noBreak, spec.1.nonempty, by omega⟩
  | single =>
    have := length_doubleQuotes key.toList
    rw [textChars_single simple style]
    refine ⟨?_, by simp, ?_⟩
    · simp only [List.forall_mem_append, List.forall_mem_singleton, mem_doubleQuotes]
      exact ⟨⟨by decide, noBreak⟩, by decide⟩
    · simp only [List.length_append, List.length_singleton]
      omega
  | double =>
    have text : textChars indent key = ['"'] ++ key.toList.flatMap escape ++ ['"'] := by
      simp [textChars, style]
    have := length_flatMap_escape key.toList
    rw [text]
    refine ⟨?_, by simp, ?_⟩
    · simp only [List.forall_mem_append, List.forall_mem_singleton, List.forall_mem_flatMap]
      exact ⟨⟨by decide, fun d _ c mem => ((escape_plain d).2 c mem).2⟩, by decide⟩
    · simp only [List.length_append, List.length_singleton]
      omega
  | literal => exact absurd style (styleOf_ne_literal simple)

/-- A simple key is read as its token before its colon. -/
theorem readsNode_simpleKey (indent : Nat) {more : List Char} (ends : atBlankOrEnd more = true) :
    ReadsNode (textChars indent key) (':' :: more) (textToken key) := by
  have spec := styleOf_spec key
  cases style : styleOf key with
  | plain =>
    rw [style] at spec
    have read := spec.1.readsNode ends
    rw [String.ofList_toList] at read
    simpa [textChars, textToken, style, Style.scalarStyle] using read
  | single =>
    -- on one line the indentation does not matter
    have read : ReadsNode (textChars 1 key) (':' :: more) (textToken key) :=
      readsNode_quoted Nat.one_pos (.inl style) (by simp)
    rwa [textChars_single simple style] at read ⊢
  | double =>
    have read : ReadsNode (textChars 1 key) (':' :: more) (textToken key) :=
      readsNode_quoted Nat.one_pos (.inr style) (by simp)
    simpa [textChars, style] using read
  | literal => exact absurd style (styleOf_ne_literal simple)

end SimpleKey

/-! ## Printable texts -/

/-- Whether every character of a text is written as it is. -/
def Printable (cs : List Char) : Prop := ∀ c ∈ cs, isPrintable c = true

instance (cs : List Char) : Decidable (Printable cs) :=
  decidable_of_iff (cs.all isPrintable = true) List.all_eq_true

theorem printable_append {xs ys : List Char} :
    Printable (xs ++ ys) ↔ Printable xs ∧ Printable ys := List.forall_mem_append

theorem printable_cons {c : Char} {cs : List Char} :
    Printable (c :: cs) ↔ isPrintable c = true ∧ Printable cs := List.forall_mem_cons

theorem printable_pad (n : Nat) : Printable (pad n) := by
  intro c mem
  rw [List.eq_of_mem_replicate mem]
  decide

theorem printable_indented {indent : Nat} {cs : List Char} (h : Printable cs) (fresh : Bool) :
    Printable (indented indent fresh cs) := by
  induction cs generalizing fresh with
  | nil => exact h
  | cons c cs ih =>
    rw [printable_cons] at h
    unfold indented
    split_ifs
    · exact printable_cons.2 ⟨h.1, ih h.2 true⟩
    · exact printable_append.2 ⟨printable_pad indent, printable_cons.2 ⟨h.1, ih h.2 false⟩⟩
    · exact printable_cons.2 ⟨h.1, ih h.2 false⟩

theorem printable_literalHeader (cs : List Char) : Printable (literalHeader cs) := by
  rcases List.eq_nil_or_concat' cs with rfl | ⟨cs, d, rfl⟩
  · decide
  · rw [literalHeader_append]
    refine printable_append.2 ⟨by split_ifs <;> decide, ?_⟩
    generalize (if isBreak d then _ else _ : Chomping) = chomping
    cases chomping <;> decide

theorem printable_textLine (s : String) (indent : Nat) : Printable (textLine indent s) := by
  have spec := styleOf_spec s
  have ending : Printable (if endsLine s then [] else ['\n']) := by split_ifs <;> decide
  refine printable_append.2 ⟨?_, ending⟩
  unfold textChars
  cases style : styleOf s with
  | plain =>
    rw [style] at spec
    exact spec.1.printable
  | single =>
    rw [style] at spec
    have inner : Printable (doubleQuotes s.toList) := by
      have allowed := spec.1
      simp only [singleAllowed, needsEscapes, Bool.and_eq_true, Bool.not_eq_true',
        Bool.or_eq_false_iff, Bool.not_eq_false', List.all_eq_true] at allowed
      exact fun c mem => allowed.1.1 c (mem_doubleQuotes.1 mem)
    have quote : Printable ['\''] := by decide
    have pads : Printable (if s.toList.getLast?.any isBreak then pad indent else []) := by
      split_ifs
      · exact printable_pad indent
      · decide
    exact printable_append.2 ⟨printable_append.2
      ⟨printable_cons.2 ⟨by decide, printable_indented inner false⟩, pads⟩, quote⟩
  | double =>
    have inner : Printable (s.toList.flatMap escape) := by
      intro c mem
      obtain ⟨d, -, mem⟩ := List.mem_flatMap.1 mem
      exact ((escape_plain d).2 c mem).1
    have quote : Printable ['"'] := by decide
    exact printable_append.2 ⟨printable_cons.2 ⟨by decide, inner⟩, quote⟩
  | literal =>
    rw [style] at spec
    exact printable_append.2 ⟨printable_cons.2 ⟨by decide, printable_literalHeader s.toList⟩,
      printable_cons.2 ⟨by decide, printable_indented spec.1 true⟩⟩

end LogForwarder.Yaml
