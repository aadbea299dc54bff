import LogForwarder.Proofs.Yaml.Block
import LogForwarder.Proofs.Yaml.Entry
import LogForwarder.Proofs.Yaml.Plain
import LogForwarder.Proofs.Yaml.Quoted

/-!
# Scalars as tokens

A scalar is read as one token, in all of its styles and where a key stands as well as where a
value does.
-/

namespace LogForwarder.Yaml

/-! ## Pending keys -/

namespace Place

variable {rest : List Char} {column : Nat} {indents : List Nat} {keyAllowed : Bool}
  {emitted : List Token}

/-- The pending key after something that begins at a place. -/
def saved (p : Place) (index line : Nat) : Option PendingKey :=
  if p.keyAllowed then
    some ⟨p.emitted.length, index, line, p.column, p.indents.head? == some p.column⟩
  else none

theorem savePending_toLexer (p : Place) (index line : Nat) :
    (p.toLexer index line).savePending =
      some { p.toLexer index line with pending := p.saved index line } := by
  obtain ⟨rest, column, indents, keyAllowed, emitted⟩ := p
  cases keyAllowed <;> rfl

/-- A token that may begin a key is taken, and the key is pending. -/
theorem node_toLexer (p : Place) (rest : List Char) (token : Token) (index line : Nat) :
    (p.toLexer index line).node rest token = some
      { cursor := (Cursor.mk p.rest index line p.column).upTo rest
        indents := p.indents
        keyAllowed := false
        pending := p.saved index line
        emitted := token :: p.emitted } := by
  rw [Lexer.node, savePending_toLexer]
  rfl

/-- Whether something that begins at a place need not be a key. -/
def Free (p : Place) : Prop := p.keyAllowed = true → p.indents.head? ≠ some p.column

theorem Free.not_required {p : Place} (free : p.Free) (index line : Nat) {key : PendingKey}
    (h : key ∈ p.saved index line) : key.required = false ∧ key.line = line := by
  unfold saved at h
  split_ifs at h with allowed
  · rw [Option.mem_some_iff] at h
    subst h
    exact ⟨by simpa using free allowed, rfl⟩
  · simp at h

end Place

theorem Cursor.upTo_upTo (front passed rest : List Char) (index line column : Nat) :
    ((Cursor.mk (front ++ (passed ++ rest)) index line column).upTo (passed ++ rest)).upTo rest =
      (Cursor.mk (front ++ (passed ++ rest)) index line column).upTo rest := by
  obtain ⟨index', line', column', skip, -⟩ :=
    skip_append front (passed ++ rest) index line column
  have whole := upTo_append (front ++ passed) rest index line column
  rw [List.append_assoc, List.length_append, skip_add, skip] at whole
  rw [whole, upTo_append, skip, upTo_append]

theorem Cursor.upTo_rest (front rest : List Char) (index line column : Nat) :
    ((Cursor.mk (front ++ rest) index line column).upTo rest).rest = rest := by
  obtain ⟨_, _, _, skip, -⟩ := skip_append front rest index line column
  rw [upTo_append, skip]

namespace Place

variable {rest : List Char} {column : Nat} {indents : List Nat} {keyAllowed : Bool}
  {emitted : List Token}

/-- A place where a line has ended is left for the next token, and a key that was pending on that
line is none. -/
theorem leads_lineEnd (index line column : Nat) (indents : List Nat) (emitted : List Token)
    {front passed ys : List Char} {d : Char} {count : Nat}
    (text : front ++ passed = ys ++ d :: pad count) (ends : isBreak d = true)
    (start : rest = [] ∨ StartsToken rest)
    (next : Lexer.toToken false keyAllowed false (passed ++ rest) = (true, rest))
    {pending : Option PendingKey}
    (free : ∀ key ∈ pending, key.required = false ∧ key.line = line) :
    ∃ index' line', Lexer.Leads
      { cursor := (Cursor.mk (front ++ (passed ++ rest)) index line column).upTo (passed ++ rest)
        indents, keyAllowed, pending, emitted }
      (toLexer ⟨rest, count, indents, true, emitted⟩ index' line') := by
  obtain ⟨index', line', cursor, later⟩ := Cursor.upTo_line ys ends rest index line column count
  have whole : ys ++ d :: (pad count ++ rest) = front ++ (passed ++ rest) := by
    rw [← List.append_assoc front, text]
    simp
  rw [whole] at cursor
  refine ⟨index', line', Lexer.leads_toLexer rfl passed ?_ start next
    ((Cursor.upTo_upTo front passed rest index line column).trans cursor) ?_⟩
  · exact Cursor.upTo_rest front (passed ++ rest) index line column
  · cases pending with
    | none => rfl
    | some key =>
      obtain ⟨optional, same⟩ := free key rfl
      have stale : Lexer.isStale ⟨rest, index', line', count⟩ key = true := by
        simp [Lexer.isStale, same, later]
      simp [Lexer.refresh, stale, optional]

/-- What one step reads to the end of its line leads to the next token. -/
theorem leads_of_lineEnd (pending : Nat → Nat → Option PendingKey)
    {front passed ys : List Char} {d : Char} {count : Nat} {allowed : Bool} {tokens : List Token}
    (text : front ++ passed = ys ++ d :: pad count) (ends : isBreak d = true)
    (begins : StartsToken (front ++ (passed ++ rest))) (nonempty : front ≠ [])
    (inLine : InLine (front ++ (passed ++ rest))) (inside : Inside indents column)
    (start : rest = [] ∨ StartsToken rest)
    (next : Lexer.toToken false allowed false (passed ++ rest) = (true, rest))
    (free : ∀ index line, ∀ key ∈ pending index line, key.required = false ∧ key.line = line)
    (step : ∀ index line, (toLexer ⟨front ++ (passed ++ rest), column, indents, keyAllowed,
      emitted⟩ index line).stepInLine (front ++ (passed ++ rest)) = some
        { cursor := (Cursor.mk (front ++ (passed ++ rest)) index line column).upTo (passed ++ rest)
          indents
          keyAllowed := allowed
          pending := pending index line
          emitted := tokens }) :
    Leads ⟨front ++ (passed ++ rest), column, indents, keyAllowed, emitted⟩
      ⟨rest, count, indents, true, tokens⟩ := by
  intro index line
  obtain ⟨index', line', leads⟩ := leads_lineEnd index line column indents tokens text ends start
    next (free index line)
  refine ⟨index', line', Lexer.Leads.trans (leads_of_stepInLine begins inLine inside
    (step index line) ?_) leads⟩
  show ((Cursor.mk (front ++ (passed ++ rest)) index line column).upTo (passed ++ rest)).rest.length
    < _
  have := List.length_pos_of_ne_nil nonempty
  rw [Cursor.upTo_rest]
  simp only [List.length_append]
  omega

end Place

/-! ## Unquoted scalars -/

namespace Unquoted

variable {cs : List Char} (h : Unquoted cs) {d : Char} (tail : List Char)

include h

theorem not_isGap {c : Char} (first : cs.head? = some c) : isGap c = false := by
  have mem : c ∈ cs := List.mem_of_head? first
  rw [Bool.eq_false_iff]
  intro gap
  rw [(isGap_iff (h.printable c mem) (h.noBreak c mem)).1 gap] at first
  exact h.first first

theorem startsToken : StartsToken (cs ++ tail) := by
  obtain ⟨c, cs, rfl⟩ := List.exists_cons_of_ne_nil h.nonempty
  refine ⟨c, cs ++ tail, rfl, h.not_isGap rfl, ?_⟩
  · rintro rfl
    have := h.noIndicator
    simp [hasIndicator, isLeadingIndicator] at this

theorem inLine (other : d ≠ '-' ∧ d ≠ '.') : Place.InLine (cs ++ d :: tail) := by
  have noIndicator := h.noIndicator
  have nonempty := h.nonempty
  simp only [hasIndicator, Bool.or_eq_false_iff] at noIndicator
  obtain ⟨⟨⟨dashes, dots⟩, leading⟩, -⟩ := noIndicator
  refine ⟨?_, ?_⟩
  · obtain ⟨c, cs, rfl⟩ := List.exists_cons_of_ne_nil nonempty
    rw [List.cons_append, List.head?_cons, ne_eq, Option.some.injEq]
    rintro rfl
    simp [isLeadingIndicator] at leading
  · rcases cs with _ | ⟨a, _ | ⟨b, _ | ⟨c, cs⟩⟩⟩
    · exact absurd rfl nonempty
    · simp [atDocumentMark, other]
    · simp [atDocumentMark, other]
    · rw [List.cons_append, List.cons_append, List.cons_append]
      unfold atDocumentMark
      split
      · simp_all
      · simp_all
      · rfl

/-- A text that needs no quotes is taken for a scalar without quotes. -/
theorem stepInLine (s : Lexer) (block : s.outer = []) :
    s.stepInLine (cs ++ d :: tail) = s.plainScalar (cs ++ d :: tail) := by
  obtain ⟨c, cs, rfl⟩ := List.exists_cons_of_ne_nil h.nonempty
  have context := Lexer.inFlow_of_block block
  have noIndicator := h.noIndicator
  simp only [hasIndicator, hasInnerIndicator, Bool.or_eq_false_iff] at noIndicator
  obtain ⟨⟨-, leading, mark⟩, ⟨colon, -⟩, -⟩ := noIndicator
  -- a dash, a question mark or a colon is followed by more of the word
  have goesOn : c = '-' ∨ c = '?' ∨ c = ':' → atBlankOrEnd (cs ++ d :: tail) = false := by
    intro hc
    have inner : atBlankOrEnd cs = false := by
      rcases hc with rfl | rfl | rfl
      · simpa using mark
      · simpa using mark
      · simpa using colon
    have more : cs ≠ [] := by
      rintro rfl
      exact absurd inner (by decide)
    rwa [atBlankOrEnd_append more]
  simp only [isLeadingIndicator, List.mem_cons, List.not_mem_nil, or_false, decide_eq_false_iff_not,
    not_or] at leading
  have begins : Lexer.beginsPlain false (c :: (cs ++ d :: tail)) = true := by
    have word := h.not_isGap (c := c) rfl
    by_cases hc : c = '-' ∨ c = '?' ∨ c = ':'
    · have noBlank := head?_isBlank (goesOn hc)
      generalize cs ++ d :: tail = rest at goesOn noBlank
      rcases hc with rfl | rfl | rfl <;> simp_all [Lexer.beginsPlain]
    · have plain : Lexer.isIndicator c = false := by
        simp only [not_or] at hc
        simp [Lexer.isIndicator, hc, leading]
      simp only [isGap] at word
      simp [Lexer.beginsPlain, word, plain]
  rw [Lexer.stepInLine]
  simp only [List.cons_append, List.headD_cons, List.drop_succ_cons, List.drop_zero, context,
    leading, begins, if_true, if_false, Bool.false_eq_true, false_or, false_and]
  have noDash : ¬(c = '-' ∧ atBlankOrEnd (cs ++ d :: tail) = true) := by simp_all
  have noQuestion : ¬(c = '?' ∧ atBlankOrEnd (cs ++ d :: tail) = true) := by simp_all
  have noColon : ¬(c = ':' ∧ atBlankOrEnd (cs ++ d :: tail) = true) := by simp_all
  rw [if_neg noDash, if_neg noQuestion, if_neg noColon]

end Unquoted

namespace Place

variable {rest : List Char} {column count : Nat} {indents : List Nat} {keyAllowed : Bool}
  (emitted : List Token)

theorem readPlain_pad {indent : Nat} (breaks : List Char) (column count : Nat) :
    readPlain false indent { breaks, column? := some column } (pad count ++ rest) =
      readPlain false indent { breaks, column? := some (column + count) } rest := by
  induction count generalizing column with
  | zero => rfl
  | succ count ih =>
    have gap : isGap ' ' = true := by decide
    have push : Gap.push { breaks, column? := some column } ' ' =
        { breaks, column? := some (column + 1) } := by simp [Gap.push, isBreak]
    rw [pad, List.replicate_succ, List.cons_append, readPlain]
    simp only [gap, push, if_true]
    rw [if_neg (by simp), Nat.add_comm count, ← Nat.add_assoc]
    exact ih (column + 1)

/-- A scalar without quotes ends where the next line belongs to something else. -/
theorem Next.readPlain (next : Next indents count rest) :
    Yaml.readPlain false (indents.head?.elim 0 (· + 1)) {} ('\n' :: (pad count ++ rest)) =
      some ⟨[], rest, true⟩ := by
  have gap : isGap '\n' = true := by decide
  have push : Gap.push {} '\n' = { breaks := ['\n'], column? := some 0 } := by
    simp [Gap.push, isBreak]
  rw [Yaml.readPlain]
  simp only [gap, push, if_true]
  rw [if_neg (by simp), readPlain_pad]
  cases next with
  | finish => rfl
  | mark h =>
    obtain ⟨c, cs, rfl, word, -⟩ := startsToken_of_mark h
    simp [Yaml.readPlain, word, endsBeforeWord, Gap.atLineStart, h]
  | outside inner left start =>
    obtain ⟨c, cs, rfl, word, -⟩ := start
    have ends : endsBeforeWord false (indents.head?.elim 0 (· + 1))
        { breaks := ['\n'], column? := some (0 + count) } (c :: cs) = true := by
      simp [endsBeforeWord, inner]
      omega
    rw [Yaml.readPlain, if_neg (by simp [word]), if_pos ends]
    rfl

/-- A text that needs no quotes is one token. -/
theorem leads_plain {cs : List Char} (h : Unquoted cs) (next : Next indents count rest)
    (inside : Inside indents column)
    (free : Free ⟨cs ++ '\n' :: (pad count ++ rest), column, indents, keyAllowed, emitted⟩) :
    Leads ⟨cs ++ '\n' :: (pad count ++ rest), column, indents, keyAllowed, emitted⟩
      ⟨rest, count, indents, true, .scalar .plain (String.ofList cs) :: emitted⟩ := by
  have text : cs ++ '\n' :: (pad count ++ rest) = (cs ++ '\n' :: pad count) ++ ([] ++ rest) := by
    simp
  have begins := h.startsToken ('\n' :: (pad count ++ rest))
  have inLine := h.inLine (d := '\n') (pad count ++ rest) (by decide)
  have read := h.readPlain next.readPlain
  have step := h.stepInLine (d := '\n') (pad count ++ rest)
  rw [text] at begins inLine read step free ⊢
  refine leads_of_lineEnd _ (List.append_nil _) (by decide) begins (by simp) inLine inside
    next.start (Lexer.toToken_self next.start true)
    (fun index line key mem => free.not_required index line mem)
    fun index line => ?_
  rw [step _ rfl, Lexer.plainScalar]
  show (Yaml.readPlain false (indents.head?.elim 0 (· + 1)) {} _).bind _ = _
  rw [read, Option.bind_some, node_toLexer]
  rfl

end Place

/-! ## Quoted scalars -/

/-- Whether a text before another one is read as a token that may begin a key. -/
def ReadsNode (xs tail : List Char) (token : Token) : Prop :=
  ∀ s : Lexer, s.outer = [] → s.stepInLine (xs ++ tail) = s.node tail token

/-- Whether a text begins like a quoted scalar. -/
def BeginsQuote (xs : List Char) : Prop := xs.head? = some '\'' ∨ xs.head? = some '"'

theorem BeginsQuote.startsToken {xs : List Char} (h : BeginsQuote xs) : StartsToken xs := by
  obtain _ | ⟨c, cs⟩ := xs
  · simp [BeginsQuote] at h
  · rcases h with h | h
    all_goals
      obtain rfl := Option.some.inj h
      exact ⟨_, cs, rfl, by decide, by decide⟩

theorem BeginsQuote.inLine {xs : List Char} (h : BeginsQuote xs) : Place.InLine xs := by
  obtain _ | ⟨c, cs⟩ := xs
  · simp [BeginsQuote] at h
  · rcases h with h | h
    all_goals
      obtain rfl := Option.some.inj h
      exact ⟨by simp, by simp [atDocumentMark]⟩

theorem readsNode_double (cs tail : List Char) :
    ReadsNode ('"' :: cs.flatMap escape ++ ['"']) tail (.scalar .quoted (String.ofList cs)) := by
  intro s block
  have context := Lexer.inFlow_of_block block
  have read := readDouble_flatMap_escape cs [] tail
  simp [Lexer.stepInLine, context, read]

theorem readsNode_single {cs tail : List Char} {indent : Nat} (hi : 0 < indent)
    (allowed : singleAllowed cs = true) (noFeed : '\n' ∉ cs) (more : tail.head? ≠ some '\'') :
    ReadsNode ('\'' :: indented indent false (doubleQuotes cs) ++
      (if cs.getLast?.any isBreak then pad indent else []) ++ ['\'']) tail
      (.scalar .quoted (String.ofList cs)) := by
  intro s block
  have context := Lexer.inFlow_of_block block
  simp only [singleAllowed, needsEscapes, Bool.and_eq_true, Bool.not_eq_true',
    Bool.or_eq_false_iff, Bool.not_eq_false'] at allowed
  obtain ⟨⟨printable, noTrailing⟩, noLeading⟩ := allowed
  have between : Between cs false {} := .blanks [] (by simp)
  have read := readSingle_indented hi more (List.all_eq_true.1 printable) noFeed noTrailing
    noLeading between
  have ending : cs.getLast?.elim false isBreak = cs.getLast?.any isBreak := by
    cases cs.getLast? <;> rfl
  rw [ending] at read
  simp [Lexer.stepInLine, context, read, Gap.text]

theorem Unquoted.readsNode {cs more : List Char} (h : Unquoted cs)
    (ends : atBlankOrEnd more = true) :
    ReadsNode cs (':' :: more) (.scalar .plain (String.ofList cs)) := by
  intro s block
  have context := Lexer.inFlow_of_block block
  have stop : Yaml.readPlain false s.innerColumn {} (':' :: more) =
      some ⟨[], ':' :: more, false⟩ := by
    have word : isGap ':' = false := by decide
    have goesOn : endsBeforeWord false s.innerColumn {} (':' :: more) = false := by
      simp [endsBeforeWord, Gap.atLineStart]
    rw [Yaml.readPlain, if_neg (by simp [word]), if_neg (by simp [goesOn])]
    simp [ends]
  rw [h.stepInLine _ _ block, Lexer.plainScalar, context, h.readPlain stop]
  simp

namespace Place

variable {rest : List Char} {column count : Nat} {indents : List Nat} {keyAllowed : Bool}
  (emitted : List Token)

/-- A quoted text at the end of its line is one token. -/
theorem leads_quoted {xs : List Char} {token : Token} (quote : BeginsQuote xs)
    (read : ReadsNode xs ('\n' :: (pad count ++ rest)) token) (next : Next indents count rest)
    (inside : Inside indents column)
    (free : Free ⟨xs ++ '\n' :: (pad count ++ rest), column, indents, keyAllowed, emitted⟩) :
    Leads ⟨xs ++ '\n' :: (pad count ++ rest), column, indents, keyAllowed, emitted⟩
      ⟨rest, count, indents, true, token :: emitted⟩ := by
  have begins : BeginsQuote (xs ++ '\n' :: (pad count ++ rest)) := by
    obtain _ | ⟨c, cs⟩ := xs
    · simp [BeginsQuote] at quote
    · exact quote
  have nonempty : xs ≠ [] := by
    rintro rfl
    simp [BeginsQuote] at quote
  have line := Lexer.toToken_line (d := '\n') (by decide) count false rest
  have text : xs ++ ('\n' :: pad count) = xs ++ '\n' :: pad count := rfl
  refine leads_of_lineEnd _ text (by decide)
    begins.startsToken nonempty begins.inLine inside next.start
    (line.trans (Lexer.toToken_self next.start true))
    (fun index line key mem => free.not_required index line mem)
    fun index line => ?_
  exact (read _ rfl).trans (node_toLexer _ _ _ _ _)

end Place

/-! ## Literal blocks -/

namespace Place

variable {rest : List Char} {column count : Nat} {indents : List Nat} {keyAllowed : Bool}
  (emitted : List Token)

/-- The column of the further lines of a value inside some open collections. -/
def innerIndent (indents : List Nat) : Nat := indents.head?.elim 2 (· + 2)

theorem Next.stopsBlock (next : Next indents count rest) :
    StopsBlock (innerIndent indents) (pad count ++ rest) := by
  have wide : 2 ≤ innerIndent indents := by
    unfold innerIndent
    cases indents.head? <;> simp
  cases next with
  | finish => exact .inl rfl
  | mark h =>
    obtain ⟨c, cs, rfl, word, -⟩ := startsToken_of_mark h
    exact .inr ⟨0, c, cs, rfl, by omega, word⟩
  | outside inner left start =>
    obtain ⟨c, cs, rfl, word, -⟩ := start
    refine .inr ⟨count, c, cs, rfl, ?_, word⟩
    simp [innerIndent, inner]
    omega

variable (keyAllowed) in
/-- A literal block is one token. -/
theorem leads_literal {cs : List Char} (printable : ∀ c ∈ cs, isPrintable c = true)
    (nonempty : cs ≠ []) (next : Next indents count rest) (inside : Inside indents column) :
    Leads ⟨'|' :: literalHeader cs ++ '\n' :: indented (innerIndent indents) true cs ++
        (if cs.getLast?.any isBreak then [] else ['\n']) ++ (pad count ++ rest), column, indents,
        keyAllowed, emitted⟩
      ⟨rest, count, indents, true, .scalar .literal (String.ofList cs) :: emitted⟩ := by
  have begins : ∀ xs : List Char, StartsToken ('|' :: xs) ∧ InLine ('|' :: xs) := fun xs =>
    ⟨⟨'|', xs, rfl, by decide, by decide⟩, by simp, by simp [atDocumentMark]⟩
  obtain ⟨ys, d, ends, line⟩ : ∃ ys d, isBreak d = true ∧
      '|' :: literalHeader cs ++ '\n' :: indented (innerIndent indents) true cs ++
        (if cs.getLast?.any isBreak then [] else ['\n']) = ys ++ [d] := by
    by_cases ends : cs.getLast?.any isBreak = true
    · obtain ⟨init, d, rfl⟩ := (List.eq_nil_or_concat' cs).resolve_left nonempty
      have last : isBreak d = true := by simpa using ends
      refine ⟨'|' :: literalHeader (init ++ [d]) ++
        '\n' :: indented (innerIndent indents) true init, d, last, ?_⟩
      rw [if_pos ends, indented_append_break last]
      simp
    · rw [if_neg ends]
      exact ⟨_, '\n', by decide, rfl⟩
  have least : (indents.head?.elim 0 (· + 1)) - 1 + 2 = innerIndent indents := by
    unfold innerIndent
    cases indents.head? <;> rfl
  have read := readBlock_literal least printable nonempty next.stopsBlock
  have text : ('|' :: literalHeader cs ++ '\n' :: indented (innerIndent indents) true cs ++
      (if cs.getLast?.any isBreak then [] else ['\n'])) ++ pad count = ys ++ d :: pad count := by
    rw [line]
    simp
  refine leads_of_lineEnd (fun _ _ => none) text ends (begins _).1 (by simp) (begins _).2 inside
    next.start ((Lexer.toToken_pad count true rest).trans (Lexer.toToken_self next.start true))
    (by simp)
    fun index line => ?_
  have dispatch : ∀ (s : Lexer) (xs : List Char), s.outer = [] →
      s.stepInLine ('|' :: xs) = s.blockScalar .literal xs := by
    intro s xs block
    have context := Lexer.inFlow_of_block block
    simp [Lexer.stepInLine, context]
  simp only [List.cons_append, List.append_assoc]
  rw [dispatch _ _ rfl, Lexer.blockScalar]
  show (readBlock true (indents.head?.elim 0 (· + 1)) _).bind _ = _
  rw [read]
  rfl

/-! ## Empty collections -/

/-- The state after the bracket that opens a collection at a place. -/
def inBrackets (p : Place) (rest : List Char) (first : Token) (index line : Nat) : Lexer :=
  { cursor := ⟨rest, index + 1, line, p.column + 1⟩
    indents := p.indents
    keyAllowed := true
    outer := [p.saved index line]
    emitted := first :: p.emitted }

theorem settle_inBrackets (p : Place) {c : Char} (hc : isGap c = false ∧ c ≠ '#')
    (rest : List Char) (first : Token) (index line : Nat) :
    (p.inBrackets (c :: rest) first index line).settle =
      some (p.inBrackets (c :: rest) first index line) := by
  obtain ⟨gap, hash⟩ := hc
  obtain ⟨space, tab, noBreak⟩ := of_isGap_eq_false gap
  have next : Lexer.toToken true true false (c :: rest) = (true, c :: rest) := by
    rw [Lexer.toToken]
    simp [noBreak, space, tab, hash]
  have kept : Lexer.refresh ⟨c :: rest, index + 1, line, p.column + 1⟩ (p.saved index line) =
      some (p.saved index line) := by
    unfold saved
    split_ifs
    · simp [Lexer.refresh, Lexer.isStale]
    · rfl
  rw [Lexer.settle]
  show (Lexer.dropStale _).bind _ = _
  simp only [inBrackets, Lexer.inFlow, List.isEmpty_cons, Bool.not_false, next, Lexer.dropStale,
    Cursor.upTo_self, List.mapM_cons, List.mapM_nil, kept]
  rfl

/-- Two brackets with nothing between them are two tokens. -/
theorem leads_brackets {o c : Char} {first last : Token}
    (ho : isGap o = false ∧ o ∉ ['#', '%', '-', '.']) (hc : isGap c = false ∧ c ≠ '#')
    (opens : ∀ (s : Lexer) xs, s.stepInLine (o :: xs) = s.openFlow first)
    (closes : ∀ (s : Lexer) xs, s.stepInLine (c :: xs) = s.closeFlow last)
    (next : Next indents count rest) (inside : Inside indents column)
    (free : Free ⟨o :: c :: '\n' :: (pad count ++ rest), column, indents, keyAllowed, emitted⟩) :
    Leads ⟨o :: c :: '\n' :: (pad count ++ rest), column, indents, keyAllowed, emitted⟩
      ⟨rest, count, indents, true, last :: first :: emitted⟩ := by
  intro index line
  obtain ⟨gap, other⟩ := ho
  simp only [List.mem_cons, List.not_mem_nil, or_false, not_or] at other
  have noBreak : ∀ d ∈ [o, c], isBreak d = false := by
    have gap' := hc.1
    simp only [isGap, Bool.or_eq_false_iff] at gap gap'
    simp [gap.2, gap'.2]
  have line' := Lexer.toToken_line (d := '\n') (by decide) count false rest
  have cursor := Cursor.upTo_noBreak noBreak ('\n' :: pad count ++ rest) index line column
  let p : Place :=
    ⟨o :: c :: '\n' :: (pad count ++ rest), column, indents, keyAllowed, emitted⟩
  have first' : (p.toLexer index line).Leads
      (p.inBrackets (c :: '\n' :: (pad count ++ rest)) first index line) := by
    refine leads_of_stepInLine ⟨o, _, rfl, gap, other.1⟩
      ⟨by simpa using other.2.1, by simp [atDocumentMark, other]⟩ inside ?_ (by simp [inBrackets])
    rw [opens, Lexer.openFlow]
    show (Lexer.savePending (p.toLexer index line)).bind _ = _
    rw [savePending_toLexer]
    simp [p, toLexer, inBrackets, Lexer.take, Lexer.emit, Cursor.skip,
      Cursor.next_of_noBreak (noBreak o (by simp))]
  have text : [o, c] ++ ('\n' :: pad count) = [o, c] ++ '\n' :: pad count := rfl
  obtain ⟨index', line', end'⟩ := leads_lineEnd index line column indents
    (last :: first :: emitted) text (by decide) next.start
    (line'.trans (Lexer.toToken_self next.start true))
    (fun key mem => free.not_required index line mem)
  rw [cursor] at end'
  refine ⟨index', line', first'.trans (Lexer.Leads.trans ?_ end')⟩
  refine Lexer.leads_of_step (settle_inBrackets p hc _ first index line) (by simp [inBrackets])
    ?_ ?_
  · rw [Lexer.step, if_neg (by simp [inBrackets]), if_neg (by simp [inBrackets])]
    show Lexer.stepInLine _ (c :: _) = _
    rw [closes]
    simp [p, Lexer.closeFlow, Lexer.dropPending, inBrackets, Lexer.take, Lexer.emit, Cursor.skip,
      Cursor.next_of_noBreak (noBreak c (by simp))]
  · simp [inBrackets]

/-! ## Keys before their colon -/

/-- A key is found when its colon comes, and the value goes on from there. -/
theorem leads_simpleKey {xs more : List Char} {token : Token}
    (read : ReadsNode xs (':' :: more) token) (begins : StartsToken (xs ++ ':' :: more))
    (inLine : InLine (xs ++ ':' :: more)) (noBreak : ∀ c ∈ xs, isBreak c = false)
    (nonempty : xs ≠ []) (short : xs.length ≤ 1024) (ends : atBlankOrEnd more = true)
    (inside : Inside indents column) :
    Leads ⟨xs ++ ':' :: more, column, indents, true, emitted⟩
      ⟨more, column + xs.length + 1, opened indents column, false,
        .value :: token :: .key :: opening indents column .blockMapping emitted⟩ := by
  intro index line
  let key : PendingKey :=
    ⟨emitted.length, index, line, column, indents.head? == some column⟩
  let s : Lexer :=
    { cursor := ⟨':' :: more, index + xs.length, line, column + xs.length⟩
      indents, keyAllowed := false, pending := some key, emitted := token :: emitted }
  have cursor := Cursor.upTo_noBreak noBreak (':' :: more) index line column
  have length := List.length_pos_of_ne_nil nonempty
  have first : Lexer.Leads (toLexer ⟨xs ++ ':' :: more, column, indents, true, emitted⟩ index line)
      s := by
    refine leads_of_stepInLine begins inLine inside ?_ (by simp [s]; omega)
    rw [read _ rfl, node_toLexer, cursor]
    rfl
  have colon : StartsToken (':' :: more) := ⟨':', more, rfl, by decide, by decide⟩
  have kept : Lexer.refresh (s.cursor.upTo (':' :: more)) s.pending = some (some key) := by
    have current : Lexer.isStale s.cursor key = false := by
      simp [Lexer.isStale, s, key]
      omega
    rw [Cursor.upTo_self]
    simp [Lexer.refresh, s, current]
  have settled : s.settle = some s := by
    rw [Lexer.settle_eq rfl (Lexer.toToken_self (.inr colon) false) kept, Cursor.upTo_self,
      closeRightOf_self]
    intro i mem
    exact Nat.le_trans (inside i mem) (Nat.le_add_right column xs.length)
  have step : s.step = s.valueMark := by
    rw [Lexer.step]
    simp [s, atDocumentMark, Lexer.stepInLine, Lexer.inFlow, ends]
  refine ⟨index + xs.length + 1, line, first.trans (Lexer.leads_of_step settled (by simp [s]) ?_
    (by simp [s, toLexer]))⟩
  have noBreak : isBreak ':' = false := by decide
  rw [step, Lexer.valueMark]
  show some { Lexer.take (Lexer.openAt (s.insert emitted.length .key) column emitted.length
    .blockMapping) 1 .value with pending := none, keyAllowed := false } = _
  rw [openAt_eq rfl inside]
  -- one token stands after that of the key, and two after that of the mapping
  have two : emitted.length + 1 + 1 - emitted.length = 2 := by omega
  by_cases same : indents.head? = some column
  · simp [s, Lexer.insert, same, Lexer.take, Lexer.emit, Cursor.skip,
      Cursor.next_of_noBreak noBreak, toLexer, opened, opening]
  · simp [s, Lexer.insert, same, Lexer.take, Lexer.emit, Cursor.skip,
      Cursor.next_of_noBreak noBreak, toLexer, opened, opening, two]

end Place

end LogForwarder.Yaml
