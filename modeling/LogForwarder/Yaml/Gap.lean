import LogForwarder.Yaml.Char

/-!
# Gaps inside scalars

Between two words of a scalar stand blanks and line ends. `Gap.text` is what a gap contributes to
the text: blanks on one line stay, a single line end becomes a space, and of several the first is
dropped. Only line feeds fold; the separators of lines and paragraphs stay what they are.

A reader meets line feeds only: `lineFeeds` writes every other spelling of a line end as one.
-/

namespace LogForwarder.Yaml

/-- A text with line feeds for carriage returns and next-line characters. -/
def lineFeeds : List Char → List Char
  | [] => []
  | '\r' :: '\n' :: cs => '\n' :: lineFeeds cs
  | c :: cs => (if c == '\r' || c.toNat == 0x85 then '\n' else c) :: lineFeeds cs

/-- Whether a character belongs to a gap. -/
def isGap (c : Char) : Bool := isBlank c || isBreak c

/-- What two or more line ends contribute when the first of them folds, and what one does. -/
def foldBreaks : List Char → List Char
  | ['\n'] => [' ']
  | '\n' :: more => more
  | breaks => breaks

/-- The blanks and line ends that stand since the last word of a scalar. -/
structure Gap where
  /-- The blanks before the first line end. -/
  blanks : List Char := []
  /-- The line ends. -/
  breaks : List Char := []
  /-- The column reached, once a line end was passed. -/
  column? : Option Nat := none
  /-- Whether the first line end passed was an escaped one, which is no part of the text. -/
  escaped : Bool := false
  deriving DecidableEq, Repr

namespace Gap

/-- The gap right after an escaped line end. -/
def afterEscape : Gap := { column? := some 0, escaped := true }

/-- The gap with one more character. -/
def push (g : Gap) (c : Char) : Gap :=
  if isBreak c then { g with breaks := g.breaks ++ [c], column? := some 0 }
  else
    match g.column? with
    | none => { g with blanks := g.blanks ++ [c] }
    | some column => { g with column? := some (column + 1) }

/-- Whether the gap ends at the start of a line. -/
def atLineStart (g : Gap) : Bool := g.column? == some 0

/-- What the gap contributes to the text. -/
def text (g : Gap) : List Char :=
  if g.escaped then g.breaks
  else if g.column?.isNone then g.blanks
  else foldBreaks g.breaks

end Gap

end LogForwarder.Yaml
