import LogForwarder.Yaml.Scalar.Block
import LogForwarder.Yaml.Scalar.Plain
import LogForwarder.Yaml.Scalar.Quoted
import LogForwarder.Yaml.Tag

/-!
# From YAML text to tokens

The lexer keeps the columns of the block collections that are open, and closes them when a line
begins further to the left. Only a colon shows that what stands before it was a key, so the lexer
remembers where a key may have begun; when the colon comes, the token of the key is put there.

1. `Lexer.settle` goes to the next token: blanks and comments are passed, keys that got no colon
   in time are forgotten, and collections are closed.
2. `Lexer.step` reads one token.
3. `tokens?` are the tokens of a text.
-/

namespace LogForwarder.Yaml

/-! ## Places in a text -/

/-- A place in a text: what follows it, and where it is. -/
structure Cursor where
  rest : List Char
  index : Nat := 0
  line : Nat := 0
  column : Nat := 0
  deriving Repr

namespace Cursor

/-- The place one character further. -/
def next (c : Cursor) : Cursor :=
  match c.rest with
  | [] => c
  | d :: rest =>
    if isBreak d then ⟨rest, c.index + 1, c.line + 1, 0⟩
    else ⟨rest, c.index + 1, c.line, c.column + 1⟩

/-- The place some characters further. -/
def skip (c : Cursor) : Nat → Cursor
  | 0 => c
  | n + 1 => c.next.skip n

/-- The place that `rest` follows. -/
def upTo (c : Cursor) (rest : List Char) : Cursor := c.skip (c.rest.length - rest.length)

end Cursor

/-! ## The state of the lexer -/

/-- A place where a key may have begun. -/
structure PendingKey where
  /-- How many tokens stand before it. -/
  before : Nat
  index : Nat
  line : Nat
  column : Nat
  /-- Whether nothing but a key may begin there. -/
  required : Bool
  deriving Repr

/-- What the lexer knows at a place in a text. -/
structure Lexer where
  cursor : Cursor
  /-- The columns of the open block collections, the innermost first. -/
  indents : List Nat := []
  /-- Whether a key may begin here. -/
  keyAllowed : Bool := true
  /-- Where a key may have begun, in the innermost flow collection. -/
  pending : Option PendingKey := none
  /-- Where keys may have begun in what is around each open flow collection. -/
  outer : List (Option PendingKey) := []
  /-- The tokens so far, the last one first. -/
  emitted : List Token := []
  deriving Repr

namespace Lexer

/-- Whether the place is inside a flow collection. -/
def inFlow (s : Lexer) : Bool := !s.outer.isEmpty

/-- One column more than that of the innermost block collection. -/
def innerColumn (s : Lexer) : Nat := s.indents.head?.elim 0 (· + 1)

/-- The state with one more token. -/
def emit (s : Lexer) (t : Token) : Lexer := { s with emitted := t :: s.emitted }

/-- The state with a token put after the first `before` ones. -/
def insert (s : Lexer) (before : Nat) (t : Token) : Lexer :=
  let later := s.emitted.length - before
  { s with emitted := s.emitted.take later ++ t :: s.emitted.drop later }

/-- The state with the block collections to the right of a column closed. -/
def closeRightOf (s : Lexer) (column : Nat) : Lexer :=
  if s.inFlow then s
  else
    let closed := s.indents.takeWhile (column < ·)
    { s with
      indents := s.indents.dropWhile (column < ·)
      emitted := closed.map (fun _ => .blockEnd) ++ s.emitted }

/-- The state with all block collections closed. -/
def closeAll (s : Lexer) : Lexer :=
  if s.inFlow then s
  else { s with indents := [], emitted := s.indents.map (fun _ => .blockEnd) ++ s.emitted }

/-- The state with a block collection open at a column, its first token put after the first
`before` ones. -/
def openAt (s : Lexer) (column before : Nat) (t : Token) : Lexer :=
  if s.inFlow || s.indents.head?.any (column ≤ ·) then s
  else { s.insert before t with indents := column :: s.indents }

/-! ## Pending keys -/

/-- The state without the pending key, unless that was required. -/
def dropPending (s : Lexer) : Option Lexer :=
  if s.pending.any (·.required) then none else some { s with pending := none }

/-- The state with what begins here as the pending key. -/
def savePending (s : Lexer) : Option Lexer :=
  if s.keyAllowed then do
    let s ← s.dropPending
    let c := s.cursor
    let required := !s.inFlow && s.indents.head? == some c.column
    some { s with pending := some ⟨s.emitted.length, c.index, c.line, c.column, required⟩ }
  else some s

/-- Whether a key has got its colon too late: on another line, or after 1024 characters. -/
def isStale (c : Cursor) (key : PendingKey) : Bool :=
  key.line < c.line || key.index + 1024 < c.index

/-- The pending key unless it is stale. A required key may not be. -/
def refresh (c : Cursor) : Option PendingKey → Option (Option PendingKey)
  | none => some none
  | some key => if isStale c key then if key.required then none else some none else some (some key)

/-- The state without stale keys. -/
def dropStale (s : Lexer) : Option Lexer := do
  let pending ← refresh s.cursor s.pending
  let outer ← s.outer.mapM (refresh s.cursor)
  return { s with pending, outer }

/-! ## Between tokens -/

/-- The text from the next token on, and whether a key may begin there. Tabs count as blanks
unless a key may begin. -/
def toToken (inFlow : Bool) : Bool → Bool → List Char → Bool × List Char
  | keyAllowed, _, [] => (keyAllowed, [])
  | keyAllowed, inComment, c :: cs =>
    if isBreak c then toToken inFlow (keyAllowed || !inFlow) false cs
    else if inComment || c == ' ' || (c == '\t' && (inFlow || !keyAllowed)) then
      toToken inFlow keyAllowed inComment cs
    else if c == '#' then toToken inFlow keyAllowed true cs
    else (keyAllowed, c :: cs)

/-- The state at the next token. -/
def settle (s : Lexer) : Option Lexer := do
  let (keyAllowed, rest) := toToken s.inFlow s.keyAllowed false s.cursor.rest
  let s ← dropStale { s with cursor := s.cursor.upTo rest, keyAllowed }
  return s.closeRightOf s.cursor.column

/-! ## Tokens -/

/-- The state after `count` characters that are a token. -/
def take (s : Lexer) (count : Nat) (t : Token) : Lexer :=
  { s.emit t with cursor := s.cursor.skip count }

/-- The state after a token up to `rest`. -/
def takeTo (s : Lexer) (rest : List Char) (t : Token) : Lexer :=
  { s.emit t with cursor := s.cursor.upTo rest }

/-- The state before a line that belongs to no collection. -/
def leaveAll (s : Lexer) : Option Lexer := do
  let s ← s.closeAll.dropPending
  return { s with keyAllowed := false }

/-- A mark of a document. -/
def documentMark (s : Lexer) (t : Token) : Option Lexer := do
  return (← s.leaveAll).take 3 t

/-- A directive after its percent sign. -/
def directive (s : Lexer) (cs : List Char) : Option Lexer := do
  let s ← s.leaveAll
  let (t, rest) ← readDirective cs
  return s.takeTo rest t

/-- The bracket that opens a flow collection. -/
def openFlow (s : Lexer) (t : Token) : Option Lexer := do
  let s ← s.savePending
  return { s.take 1 t with outer := s.pending :: s.outer, pending := none, keyAllowed := true }

/-- The bracket that closes a flow collection. -/
def closeFlow (s : Lexer) (t : Token) : Option Lexer := do
  let s ← s.dropPending
  return { s.take 1 t with
    pending := s.outer.head?.getD none, outer := s.outer.drop 1, keyAllowed := false }

/-- The comma between entries of a flow collection. -/
def flowEntry (s : Lexer) : Option Lexer := do
  let s ← s.dropPending
  return { s.take 1 .flowEntry with keyAllowed := true }

/-- The state with a block collection open here, where that is allowed. -/
def openHere (s : Lexer) (t : Token) : Option Lexer :=
  if s.inFlow then some s
  else if s.keyAllowed then some (s.openAt s.cursor.column s.emitted.length t)
  else none

/-- The dash before an item of a block sequence. -/
def blockEntry (s : Lexer) : Option Lexer := do
  let s ← s.openHere .blockSequence
  let s ← s.dropPending
  return { s.take 1 .blockEntry with keyAllowed := true }

/-- The question mark before a key. -/
def explicitKey (s : Lexer) : Option Lexer := do
  let s ← s.openHere .blockMapping
  let s ← s.dropPending
  return { s.take 1 .key with keyAllowed := !s.inFlow }

/-- The colon before a value. -/
def valueMark (s : Lexer) : Option Lexer :=
  match s.pending with
  | some key =>
    let s := (s.insert key.before .key).openAt key.column key.before .blockMapping
    some { s.take 1 .value with pending := none, keyAllowed := false }
  | none => do
    let s ← s.openHere .blockMapping
    return { s.take 1 .value with keyAllowed := !s.inFlow }

/-- A token that may begin a key, up to `rest`. -/
def node (s : Lexer) (rest : List Char) (t : Token) : Option Lexer := do
  let s ← s.savePending
  return { s.takeTo rest t with keyAllowed := false }

/-- A block scalar after its mark. No key is one. -/
def blockScalar (s : Lexer) (style : ScalarStyle) (cs : List Char) : Option Lexer := do
  let s ← s.dropPending
  let (text, rest) ← readBlock (style == .literal) s.innerColumn cs
  return { s.takeTo rest (.scalar style (String.ofList text)) with keyAllowed := true }

/-- An unquoted scalar. After one that goes on over a line end a key may begin. -/
def plainScalar (s : Lexer) (cs : List Char) : Option Lexer := do
  let scalar ← readPlain s.inFlow s.innerColumn {} cs
  let s ← s.node scalar.rest (.scalar .plain (String.ofList scalar.text))
  return if scalar.broken then { s with keyAllowed := true } else s

/-- Whether a character begins something else than an unquoted scalar. -/
def isIndicator (c : Char) : Bool :=
  c ∈ ['-', '?', ':', ',', '[', ']', '\x7b', '\x7d', '#', '&', '*', '!', '|', '>', '\'', '"', '%',
    '@', '`']

/-- Whether an unquoted scalar begins here. -/
def beginsPlain (inFlow : Bool) : List Char → Bool
  | [] => false
  | c :: rest =>
    !(isBlank c || isBreak c || isIndicator c) || (c == '-' && !rest.head?.any isBlank) ||
      (!inFlow && (c == '?' || c == ':') && !atBlankOrEnd rest)

/-- The state after the token that begins here, which no mark at the start of a line is. -/
def stepInLine (s : Lexer) (cs : List Char) : Option Lexer :=
  let c := cs.headD ' '
  let rest := cs.drop 1
  if c = '[' then s.openFlow .flowSequence
  else if c = '\x7b' then s.openFlow .flowMapping
  else if c = ']' then s.closeFlow .flowSequenceEnd
  else if c = '\x7d' then s.closeFlow .flowMappingEnd
  else if c = ',' then s.flowEntry
  else if c = '-' ∧ atBlankOrEnd rest then s.blockEntry
  else if c = '?' ∧ (s.inFlow ∨ atBlankOrEnd rest) then s.explicitKey
  else if c = ':' ∧ (s.inFlow ∨ atBlankOrEnd rest) then s.valueMark
  else if c = '*' then (readAnchor rest).bind fun (name, rest) => s.node rest (.reference name)
  else if c = '&' then (readAnchor rest).bind fun (name, rest) => s.node rest (.anchor name)
  else if c = '!' then (readTag s.inFlow cs).bind fun (t, rest) => s.node rest t
  else if c = '|' ∧ ¬ s.inFlow then s.blockScalar .literal rest
  else if c = '>' ∧ ¬ s.inFlow then s.blockScalar .folded rest
  else if c = '\'' then (readSingle {} rest).bind fun (text, rest) =>
    s.node rest (.scalar .quoted (String.ofList text))
  else if c = '"' then (readDouble {} rest).bind fun (text, rest) =>
    s.node rest (.scalar .quoted (String.ofList text))
  else if beginsPlain s.inFlow cs then s.plainScalar cs
  else none

/-- The state after the token that begins here. -/
def step (s : Lexer) : Option Lexer :=
  let cs := s.cursor.rest
  if s.cursor.column = 0 ∧ cs.head? = some '%' then s.directive (cs.drop 1)
  else if s.cursor.column = 0 ∧ atDocumentMark cs then
    s.documentMark (if cs.head? = some '-' then .documentStart else .documentEnd)
  else s.stepInLine cs

/-- The tokens when the text is at its end. -/
def finish (s : Lexer) : Option (List Token) := do
  let s ← s.closeAll.dropPending
  return s.emitted.reverse

/-- The tokens of the text. The first argument bounds their count. -/
def run : Nat → Lexer → Option (List Token)
  | 0, _ => none
  | fuel + 1, s => do
    let s ← s.settle
    if s.cursor.rest.isEmpty then s.finish else run fuel (← s.step)

end Lexer

/-- The tokens of a text, when every character may stand in one. -/
def tokens? (text : String) : Option (List Token) :=
  let cs := text.toList
  if cs.all isAllowed then
    let cs := lineFeeds cs
    Lexer.run (cs.length + 1) { cursor := { rest := cs } }
  else none

end LogForwarder.Yaml
