import LogForwarder.Proofs.Yaml.Lexer

/-!
# Marks of entries

How the dash of an item and the marks of a key and its value are read, where the first of them
opens its collection and the later ones find it open.
-/

namespace LogForwarder.Yaml

namespace Place

variable {rest : List Char} {column : Nat} {indents : List Nat} {keyAllowed : Bool}
  {emitted : List Token}

/-! ## Steps from a place -/

/-- Whether no collection at a place begins to the right of it. -/
def Inside (indents : List Nat) (column : Nat) : Prop := ∀ i ∈ indents.head?, i ≤ column

theorem closeRightOf_self {s : Lexer} (inside : Inside s.indents column) :
    s.closeRightOf column = s := by
  unfold Lexer.closeRightOf
  split_ifs
  · rfl
  · obtain ⟨cursor, indents, keyAllowed, pending, outer, emitted⟩ := s
    cases indents with
    | nil => rfl
    | cons i is =>
      have le : i ≤ column := inside i rfl
      have stays : decide (column < i) = false := by simpa using le
      simp [stays]

theorem settle_self (start : StartsToken rest) (inside : Inside indents column)
    (index line : Nat) :
    (toLexer ⟨rest, column, indents, keyAllowed, emitted⟩ index line).settle =
      some (toLexer ⟨rest, column, indents, keyAllowed, emitted⟩ index line) := by
  rw [Lexer.settle_eq rfl (Lexer.toToken_self (.inr start) keyAllowed) rfl]
  simp only [toLexer, Cursor.upTo_self]
  rw [closeRightOf_self inside]

/-- Whether a text at the start of a line is neither a directive nor the mark of a document. -/
def InLine (rest : List Char) : Prop := rest.head? ≠ some '%' ∧ atDocumentMark rest = false

theorem step_eq (h : InLine rest) (index line : Nat) :
    (toLexer ⟨rest, column, indents, keyAllowed, emitted⟩ index line).step =
      (toLexer ⟨rest, column, indents, keyAllowed, emitted⟩ index line).stepInLine rest := by
  rw [Lexer.step]
  simp [toLexer, h.1, h.2]

theorem leads_of_stepInLine (start : StartsToken rest) (inLine : InLine rest)
    (inside : Inside indents column) {index line : Nat} {t : Lexer}
    (step : (toLexer ⟨rest, column, indents, keyAllowed, emitted⟩ index line).stepInLine rest =
      some t) (shorter : t.cursor.rest.length < rest.length) :
    (toLexer ⟨rest, column, indents, keyAllowed, emitted⟩ index line).Leads t := by
  refine Lexer.leads_of_step (settle_self start inside index line) ?_
    ((step_eq inLine index line).trans step) shorter
  obtain ⟨c, cs, rfl, -⟩ := start
  exact List.cons_ne_nil c cs

/-! ## Opening collections -/

/-- The open collections after an entry at a column. -/
def opened (indents : List Nat) (column : Nat) : List Nat :=
  if indents.head? = some column then indents else column :: indents

/-- The tokens after the collection of an entry at a column is open. -/
def opening (indents : List Nat) (column : Nat) (first : Token) (emitted : List Token) :
    List Token :=
  if indents.head? = some column then emitted else first :: emitted

theorem head?_opened : (opened indents column).head? = some column := by
  unfold opened
  split_ifs with h
  · exact h
  · rfl

theorem inside_opened : Inside (opened indents column) column := by
  intro i mem
  rw [head?_opened, Option.mem_some_iff] at mem
  omega

theorem openAt_eq {s : Lexer} (block : s.outer = []) (inside : Inside s.indents column)
    (before : Nat) (first : Token) : s.openAt column before first =
      if s.indents.head? = some column then s
      else { s.insert before first with indents := column :: s.indents } := by
  rw [Lexer.openAt, Lexer.inFlow_of_block block, Bool.false_or]
  cases head : s.indents.head? with
  | none => rfl
  | some i =>
    have le : i ≤ column := inside i head
    by_cases same : i = column
    · simp [same]
    · have lt : ¬ column ≤ i := by omega
      simp [same, lt]

theorem openHere_toLexer (inside : Inside indents column) (first : Token) (index line : Nat) :
    (toLexer ⟨rest, column, indents, true, emitted⟩ index line).openHere first =
      some (toLexer ⟨rest, column, opened indents column, true,
        opening indents column first emitted⟩ index line) := by
  show some (Lexer.openAt _ column emitted.length first) = _
  rw [openAt_eq rfl inside, opened, opening]
  by_cases same : indents.head? = some column
  · simp [toLexer, same]
  · simp [toLexer, same, Lexer.insert]

/-! ## Marks -/

/-- A mark and the blank after it are passed. -/
theorem leads_mark {mark : Char} {opens : List Nat} {tokens : List Token}
    (start : StartsToken rest) (shown : isGap mark = false ∧ mark ≠ '#' ∧ mark ≠ '%')
    (inside : Inside indents column)
    (step : ∀ index line, (toLexer ⟨mark :: ' ' :: rest, column, indents, true, emitted⟩ index
      line).stepInLine (mark :: ' ' :: rest) =
        some (toLexer ⟨' ' :: rest, column + 1, opens, true, tokens⟩ (index + 1) line)) :
    Leads ⟨mark :: ' ' :: rest, column, indents, true, emitted⟩
      ⟨rest, column + 2, opens, true, tokens⟩ := by
  have inLine : InLine (mark :: ' ' :: rest) := by
    refine ⟨by simpa using shown.2.2, ?_⟩
    simp [atDocumentMark]
  refine Leads.trans (q := ⟨' ' :: rest, column + 1, opens, true, tokens⟩) ?_ (leads_pad _ start 1)
  intro index line
  exact ⟨index + 1, line, leads_of_stepInLine ⟨mark, _, rfl, shown.1, shown.2.1⟩ inLine inside
    (step index line) (by simp [toLexer])⟩

theorem take_toLexer {d : Char} (noBreak : isBreak d = false) (token : Token) (index line : Nat) :
    { (toLexer ⟨d :: rest, column, indents, true, emitted⟩ index line).take 1 token with
      keyAllowed } =
      toLexer ⟨rest, column + 1, indents, keyAllowed, token :: emitted⟩ (index + 1) line := by
  simp [toLexer, Lexer.take, Lexer.emit, Cursor.skip, Cursor.next_of_noBreak noBreak]

variable (emitted)

theorem leads_blockEntry (start : StartsToken rest) (inside : Inside indents column) :
    Leads ⟨'-' :: ' ' :: rest, column, indents, true, emitted⟩
      ⟨rest, column + 2, opened indents column, true,
        .blockEntry :: opening indents column .blockSequence emitted⟩ := by
  refine leads_mark start (by decide) inside fun index line => ?_
  have blank : atBlankOrEnd (' ' :: rest) = true := rfl
  have dispatch : ∀ s : Lexer, s.stepInLine ('-' :: ' ' :: rest) = s.blockEntry := by
    intro s
    simp [Lexer.stepInLine, blank]
  rw [dispatch, Lexer.blockEntry, openHere_toLexer inside]
  exact congrArg some (take_toLexer (by decide) .blockEntry index line)

theorem leads_explicitKey (start : StartsToken rest) (inside : Inside indents column) :
    Leads ⟨'?' :: ' ' :: rest, column, indents, true, emitted⟩
      ⟨rest, column + 2, opened indents column, true,
        .key :: opening indents column .blockMapping emitted⟩ := by
  refine leads_mark start (by decide) inside fun index line => ?_
  have blank : atBlankOrEnd (' ' :: rest) = true := rfl
  have dispatch : ∀ s : Lexer, s.stepInLine ('?' :: ' ' :: rest) = s.explicitKey := by
    intro s
    simp [Lexer.stepInLine, blank]
  rw [dispatch, Lexer.explicitKey, openHere_toLexer inside]
  exact congrArg some (take_toLexer (by decide) .key index line)

theorem leads_explicitValue (start : StartsToken rest) (inside : Inside indents column) :
    Leads ⟨':' :: ' ' :: rest, column, indents, true, emitted⟩
      ⟨rest, column + 2, opened indents column, true,
        .value :: opening indents column .blockMapping emitted⟩ := by
  refine leads_mark start (by decide) inside fun index line => ?_
  have blank : atBlankOrEnd (' ' :: rest) = true := rfl
  have dispatch : ∀ s : Lexer, s.stepInLine (':' :: ' ' :: rest) = s.valueMark := by
    intro s
    simp [Lexer.stepInLine, blank]
  rw [dispatch, Lexer.valueMark]
  show (Lexer.openHere _ _).bind _ = _
  rw [openHere_toLexer inside]
  exact congrArg some (take_toLexer (by decide) .value index line)

end Place

end LogForwarder.Yaml
