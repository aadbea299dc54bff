import LogForwarder.Proofs.Yaml.Char
import LogForwarder.Yaml.Lexer
import Mathlib.Tactic.SplitIfs

/-!
# Steps of the lexer

What one step of the lexer does where the writer has left off, and how steps add up.

1. `Lexer.Leads` says that the tokens of a text are those found from a later state on. It holds
   where one step leads there (`leads_of_step`), and between states that settle to the same.
2. `Place` is a state between two tokens, up to the index and the line that were reached, and
   `Place.Next` says what may stand there when a value has ended.
-/

namespace LogForwarder.Yaml

/-! ## Cursors -/

namespace Cursor

theorem next_of_isBreak {d : Char} (h : isBreak d = true) (rest : List Char)
    (index line column : Nat) :
    (Cursor.mk (d :: rest) index line column).next = ⟨rest, index + 1, line + 1, 0⟩ := by
  simp [Cursor.next, h]

theorem next_of_noBreak {d : Char} (h : isBreak d = false) (rest : List Char)
    (index line column : Nat) :
    (Cursor.mk (d :: rest) index line column).next = ⟨rest, index + 1, line, column + 1⟩ := by
  simp [Cursor.next, h]

theorem skip_add (c : Cursor) (m n : Nat) : c.skip (m + n) = (c.skip m).skip n := by
  induction m generalizing c with
  | zero => rw [Nat.zero_add]; rfl
  | succ m ih => rw [Nat.succ_add]; exact ih c.next

theorem skip_noBreak {xs : List Char} (h : ∀ c ∈ xs, isBreak c = false) (rest : List Char)
    (index line column : Nat) :
    (Cursor.mk (xs ++ rest) index line column).skip xs.length =
      ⟨rest, index + xs.length, line, column + xs.length⟩ := by
  induction xs generalizing index column with
  | nil => rfl
  | cons c xs ih =>
    rw [List.forall_mem_cons] at h
    rw [List.length_cons, Cursor.skip, List.cons_append, next_of_noBreak h.1, ih h.2]
    simp only [Cursor.mk.injEq, true_and]
    omega

theorem skip_append (xs rest : List Char) (index line column : Nat) :
    ∃ index' line' column', (Cursor.mk (xs ++ rest) index line column).skip xs.length =
      ⟨rest, index', line', column'⟩ ∧ line ≤ line' := by
  induction xs generalizing index line column with
  | nil => exact ⟨index, line, column, rfl, Nat.le_refl line⟩
  | cons c xs ih =>
    rw [List.length_cons, Cursor.skip, List.cons_append]
    by_cases ends : isBreak c = true
    · obtain ⟨index', line', column', skip, le⟩ := ih (index + 1) (line + 1) 0
      rw [next_of_isBreak ends]
      exact ⟨index', line', column', skip, by omega⟩
    · rw [next_of_noBreak (by simpa using ends)]
      exact ih (index + 1) line (column + 1)

theorem upTo_append (xs rest : List Char) (index line column : Nat) :
    (Cursor.mk (xs ++ rest) index line column).upTo rest =
      (Cursor.mk (xs ++ rest) index line column).skip xs.length := by
  simp [upTo]

theorem upTo_self (rest : List Char) (index line column : Nat) :
    (Cursor.mk rest index line column).upTo rest = ⟨rest, index, line, column⟩ := by
  simp [upTo, skip]

theorem upTo_noBreak {xs : List Char} (h : ∀ c ∈ xs, isBreak c = false) (rest : List Char)
    (index line column : Nat) :
    (Cursor.mk (xs ++ rest) index line column).upTo rest =
      ⟨rest, index + xs.length, line, column + xs.length⟩ := by
  rw [upTo_append, skip_noBreak h]

/-- After a text that ends its line, and some spaces, a line is begun and these are passed. -/
theorem upTo_line (xs : List Char) {d : Char} (ends : isBreak d = true) (rest : List Char)
    (index line column count : Nat) :
    ∃ index' line', (Cursor.mk (xs ++ d :: (pad count ++ rest)) index line column).upTo rest =
      ⟨rest, index', line', count⟩ ∧ line < line' := by
  obtain ⟨index', line', column', skip, le⟩ :=
    skip_append xs (d :: (pad count ++ rest)) index line column
  refine ⟨index' + 1 + (pad count).length, line' + 1, ?_, by omega⟩
  have parts : xs ++ d :: (pad count ++ rest) = (xs ++ d :: pad count) ++ rest := by simp
  have length : (xs ++ d :: pad count).length = xs.length + ((pad count).length + 1) := by simp
  rw [parts, upTo_append, length, ← parts, skip_add, skip, Cursor.skip, next_of_isBreak ends,
    skip_noBreak fun _ => isBreak_of_mem_pad]
  simp [pad]

end Cursor

/-! ## Leading from one state to another -/

namespace Lexer

variable {s t u : Lexer}

theorem inFlow_of_block (block : s.outer = []) : s.inFlow = false := by
  simp [inFlow, block]

/-- The text that is left from a state on has these tokens, together with those before it. -/
def Lexes (s : Lexer) (ts : List Token) : Prop :=
  ∀ fuel, s.cursor.rest.length < fuel → run fuel s = some ts

/-- Whatever the tokens are from a later state on, they are those from this state on. -/
def Leads (s t : Lexer) : Prop := ∀ ts, t.Lexes ts → s.Lexes ts

theorem Leads.trans (h : s.Leads t) (h' : t.Leads u) : s.Leads u := fun ts hu => h ts (h' ts hu)

/-- A step that reads something leads on. -/
theorem leads_of_step {settled : Lexer} (hs : s.settle = some settled)
    (more : settled.cursor.rest ≠ []) (step : settled.step = some t)
    (shorter : t.cursor.rest.length < s.cursor.rest.length) : s.Leads t := by
  intro ts lexes fuel enough
  obtain ⟨fuel, rfl⟩ : ∃ n, fuel = n + 1 := ⟨fuel - 1, by omega⟩
  rw [run, hs]
  simp only [Option.bind_eq_bind, Option.bind_some, List.isEmpty_iff, if_neg more, step]
  exact lexes fuel (by omega)

theorem leads_of_run_eq (h : ∀ fuel, run (fuel + 1) s = run (fuel + 1) t)
    (shorter : t.cursor.rest.length ≤ s.cursor.rest.length) : s.Leads t := by
  intro ts lexes fuel enough
  obtain ⟨fuel, rfl⟩ : ∃ n, fuel = n + 1 := ⟨fuel - 1, by omega⟩
  rw [h]
  exact lexes (fuel + 1) (by omega)

/-- States that settle to the same lead to each other. -/
theorem leads_of_settle_eq (h : s.settle = t.settle)
    (shorter : t.cursor.rest.length ≤ s.cursor.rest.length) : s.Leads t :=
  leads_of_run_eq (fun fuel => by rw [run, run, h]) shorter

end Lexer

/-! ## Places -/

/-- A state between two tokens in block context, but for how much was read before it. -/
structure Place where
  rest : List Char
  column : Nat
  indents : List Nat
  keyAllowed : Bool
  emitted : List Token

/-- The place as a state of the lexer. -/
def Place.toLexer (p : Place) (index line : Nat) : Lexer :=
  { cursor := ⟨p.rest, index, line, p.column⟩
    indents := p.indents
    keyAllowed := p.keyAllowed
    emitted := p.emitted }

/-- Whatever the tokens are from a later place on, they are those from this place on. -/
def Place.Leads (p q : Place) : Prop :=
  ∀ index line, ∃ index' line', (p.toLexer index line).Leads (q.toLexer index' line')

theorem Place.Leads.trans {p q r : Place} (h : p.Leads q) (h' : q.Leads r) : p.Leads r := by
  intro index line
  obtain ⟨index, line, h⟩ := h index line
  obtain ⟨index, line, h'⟩ := h' index line
  exact ⟨index, line, h.trans h'⟩

/-! ## Between tokens -/

/-- Whether a text goes on with something else than blanks, line ends and comments. -/
def StartsToken (rest : List Char) : Prop :=
  ∃ c cs, rest = c :: cs ∧ isGap c = false ∧ c ≠ '#'

namespace Lexer

theorem toToken_self {rest : List Char} (h : rest = [] ∨ StartsToken rest) (keyAllowed : Bool) :
    toToken false keyAllowed false rest = (keyAllowed, rest) := by
  rcases h with rfl | ⟨c, cs, rfl, gap, hash⟩
  · rfl
  obtain ⟨space, tab, noBreak⟩ := of_isGap_eq_false gap
  rw [toToken]
  simp [noBreak, space, tab, hash]

theorem toToken_pad (count : Nat) (keyAllowed : Bool) (rest : List Char) :
    toToken false keyAllowed false (pad count ++ rest) = toToken false keyAllowed false rest := by
  induction count with
  | zero => rfl
  | succ count ih =>
    have noBreak : isBreak ' ' = false := by decide
    rw [pad, List.replicate_succ, List.cons_append, toToken, if_neg (by simp [noBreak])]
    simpa [pad] using ih

theorem toToken_line {d : Char} (ends : isBreak d = true) (count : Nat) (keyAllowed : Bool)
    (rest : List Char) :
    toToken false keyAllowed false (d :: (pad count ++ rest)) =
      toToken false true false rest := by
  rw [toToken, if_pos ends]
  simpa using toToken_pad count true rest

/-- A state in block context settles at its next token. -/
theorem settle_eq {s : Lexer} (block : s.outer = []) {keyAllowed : Bool} {rest : List Char}
    (next : toToken false s.keyAllowed false s.cursor.rest = (keyAllowed, rest))
    {pending : Option PendingKey}
    (kept : refresh (s.cursor.upTo rest) s.pending = some pending) :
    s.settle = some (closeRightOf { s with cursor := s.cursor.upTo rest, keyAllowed, pending }
      (s.cursor.upTo rest).column) := by
  rw [settle, inFlow_of_block block, next]
  simp [dropStale, kept, block]

/-- A state leads to the place of its next token, where no pending key is kept. -/
theorem leads_toLexer {s : Lexer} (block : s.outer = []) {keyAllowed : Bool}
    (passed : List Char) {rest : List Char} (text : s.cursor.rest = passed ++ rest)
    (start : rest = [] ∨ StartsToken rest)
    (next : toToken false s.keyAllowed false (passed ++ rest) = (keyAllowed, rest))
    {index line column : Nat} (cursor : s.cursor.upTo rest = ⟨rest, index, line, column⟩)
    (dropped : refresh ⟨rest, index, line, column⟩ s.pending = some none) :
    s.Leads (Place.toLexer ⟨rest, column, s.indents, keyAllowed, s.emitted⟩ index line) := by
  refine leads_of_settle_eq ?_ (by simp [Place.toLexer, text])
  rw [settle_eq block (text ▸ next) (cursor ▸ dropped),
    settle_eq rfl (toToken_self start keyAllowed) rfl, cursor]
  simp only [Place.toLexer, Cursor.upTo_self, block]

end Lexer

namespace Place

variable {rest : List Char} {column : Nat} {indents : List Nat} {keyAllowed : Bool}
  (emitted : List Token)

/-- Spaces before a token are passed. -/
theorem leads_pad (h : StartsToken rest) (count : Nat) :
    Leads ⟨pad count ++ rest, column, indents, keyAllowed, emitted⟩
      ⟨rest, column + count, indents, keyAllowed, emitted⟩ := by
  intro index line
  have cursor := Cursor.upTo_noBreak (fun _ => isBreak_of_mem_pad (n := count)) rest index line
    column
  rw [show (pad count).length = count from List.length_replicate] at cursor
  exact ⟨_, _, Lexer.leads_toLexer rfl _ rfl (.inr h)
    ((Lexer.toToken_pad count _ rest).trans (Lexer.toToken_self (.inr h) _)) cursor rfl⟩

/-- A line end is passed, and a key may begin after it. -/
theorem leads_line (h : StartsToken rest) (count : Nat) :
    Leads ⟨'\n' :: (pad count ++ rest), column, indents, keyAllowed, emitted⟩
      ⟨rest, count, indents, true, emitted⟩ := by
  intro index line
  obtain ⟨index', line', cursor, -⟩ := Cursor.upTo_line [] (d := '\n') (by decide) rest index line
    column count
  exact ⟨_, _, Lexer.leads_toLexer rfl ('\n' :: pad count) rfl (.inr h)
    ((Lexer.toToken_line (by decide) count _ rest).trans (Lexer.toToken_self (.inr h) _)) cursor
    rfl⟩

/-! ## The end of a value -/

/-- What may stand at a place where a value inside some open collections has ended: the end of the
text, the mark of a document, or something that belongs to one of the collections. -/
inductive Next (indents : List Nat) : Nat → List Char → Prop where
  | finish : Next indents 0 []
  | mark {rest : List Char} (h : atDocumentMark rest = true) : Next indents 0 rest
  | outside {column indent : Nat} {rest : List Char} (inner : indents.head? = some indent)
      (left : column ≤ indent) (start : StartsToken rest) : Next indents column rest

theorem startsToken_of_mark (h : atDocumentMark rest = true) : StartsToken rest := by
  unfold atDocumentMark at h
  split at h
  · exact ⟨'-', _, rfl, by decide, by decide⟩
  · exact ⟨'.', _, rfl, by decide, by decide⟩
  · contradiction

theorem Next.start (h : Next indents column rest) : rest = [] ∨ StartsToken rest := by
  cases h with
  | finish => exact .inl rfl
  | mark h => exact .inr (startsToken_of_mark h)
  | outside _ _ start => exact .inr start

/-- What ends a value in a collection ends one in a collection further inside. -/
theorem Next.push (h : Next indents column rest) {indent : Nat}
    (inside : ∀ outer ∈ indents.head?, outer < indent) : Next (indent :: indents) column rest := by
  cases h with
  | finish => exact .finish
  | mark h => exact .mark h
  | @outside _ outer _ inner left start =>
    have := inside outer inner
    exact .outside rfl (by omega) start

end Place

/-! ## Closing collections -/

namespace Lexer

variable {s t : Lexer} {column : Nat}

/-- The state with the collections to the right of a column closed is closed altogether like the
state itself. -/
theorem closeAll_closeRightOf (block : s.outer = []) :
    (s.closeRightOf column).closeAll = s.closeAll := by
  have context : s.inFlow = false := inFlow_of_block block
  have inner : (s.closeRightOf column).inFlow = false := by simp [closeRightOf, inFlow, block]
  rw [closeAll, closeAll, if_neg (by simp [inner]), if_neg (by simp [context])]
  unfold closeRightOf
  rw [if_neg (by simp [context])]
  have count := congrArg List.length
    (List.takeWhile_append_dropWhile (p := (column < ·)) (l := s.indents))
  rw [List.length_append] at count
  simp only [List.map_const', ← List.append_assoc, List.replicate_append_replicate]
  rw [Nat.add_comm, count]

theorem finish_congr (h : s.closeAll = t.closeAll) : s.finish = t.finish := by
  rw [finish, finish, h]

theorem documentMark_congr (h : s.closeAll = t.closeAll) (token : Token) :
    s.documentMark token = t.documentMark token := by
  rw [documentMark, documentMark, leaveAll, leaveAll, h]

theorem step_mark (mark : atDocumentMark s.cursor.rest = true) (first : s.cursor.column = 0) :
    s.step =
      s.documentMark (if s.cursor.rest.head? = some '-' then .documentStart else .documentEnd) := by
  have percent : s.cursor.rest.head? ≠ some '%' := by
    unfold atDocumentMark at mark
    split at mark
    · simp_all
    · simp_all
    · contradiction
  rw [step, if_neg (by simp [percent]), if_pos ⟨first, mark⟩]

end Lexer

namespace Place

variable {rest : List Char} {column : Nat} {indents : List Nat} {emitted : List Token}

/-- The tokens after collections are closed. -/
def closing (closed : List Nat) (emitted : List Token) : List Token :=
  List.replicate closed.length .blockEnd ++ emitted

theorem toLexer_closing (closed : List Nat) (index line : Nat) :
    (toLexer ⟨rest, column, closed ++ indents, true, emitted⟩ index line).closeAll =
      (toLexer ⟨rest, column, indents, true, closing closed emitted⟩ index line).closeAll := by
  simp only [Lexer.closeAll, toLexer, Lexer.inFlow, closing, List.map_const', List.length_append,
    ← List.append_assoc, List.replicate_append_replicate, Nat.add_comm closed.length]
  rfl

/-- Where a value has ended, the collections inside it are closed. -/
theorem leads_close (closed : List Nat) (emitted : List Token) (next : Next indents column rest)
    (inside : ∀ outer ∈ indents.head?, ∀ inner ∈ closed, outer < inner) :
    Leads ⟨rest, column, closed ++ indents, true, emitted⟩
      ⟨rest, column, indents, true, closing closed emitted⟩ := by
  intro index line
  refine ⟨index, line, Lexer.leads_of_run_eq (fun fuel => ?_) (Nat.le_refl _)⟩
  have start := next.start
  have settled : ∀ indents emitted,
      (toLexer ⟨rest, column, indents, true, emitted⟩ index line).settle =
        some ((toLexer ⟨rest, column, indents, true, emitted⟩ index line).closeRightOf column) := by
    intro indents emitted
    rw [Lexer.settle_eq rfl (Lexer.toToken_self start true) rfl]
    simp only [toLexer, Cursor.upTo_self]
  have same : ((toLexer ⟨rest, column, closed ++ indents, true, emitted⟩ index line).closeRightOf
      column).closeAll = ((toLexer ⟨rest, column, indents, true, closing closed emitted⟩ index
      line).closeRightOf column).closeAll := by
    rw [Lexer.closeAll_closeRightOf rfl, Lexer.closeAll_closeRightOf rfl, toLexer_closing]
  rw [Lexer.run, Lexer.run, settled, settled]
  simp only [Option.bind_eq_bind, Option.bind_some]
  cases next with
  | finish => exact Lexer.finish_congr same
  | mark h =>
    obtain ⟨c, cs, rfl, -⟩ := startsToken_of_mark h
    show (Lexer.step _).bind _ = (Lexer.step _).bind _
    rw [Lexer.step_mark h rfl, Lexer.step_mark h rfl]
    exact congrArg (Option.bind · (Lexer.run fuel)) (Lexer.documentMark_congr same _)
  | @outside _ outer _ inner left =>
    -- the place itself is settled by closing them first
    have right : ∀ i ∈ closed, decide (column < i) = true := by
      intro i mem
      have := inside outer inner i mem
      simp
      omega
    have same : (toLexer ⟨rest, column, closed ++ indents, true, emitted⟩ index line).closeRightOf
        column = (toLexer ⟨rest, column, indents, true, closing closed emitted⟩ index
        line).closeRightOf column := by
      simp only [Lexer.closeRightOf, toLexer, Lexer.inFlow, closing,
        List.takeWhile_append_of_pos right, List.dropWhile_append_of_pos right, List.map_const',
        List.length_append, ← List.append_assoc, List.replicate_append_replicate,
        Nat.add_comm closed.length]
      rfl
    rw [same]

end Place

end LogForwarder.Yaml
