import LogForwarder.Yaml.Char

/-!
# Block scalars

A block scalar is a header and the indented lines after it. `BlockHeader.read?` reads the header,
`blockIndent?` finds the indentation where the header gives none, and `readBlock` puts the text
together: a literal scalar keeps its line ends, a folded one joins lines with a space unless one
of them is indented further.
-/

namespace LogForwarder.Yaml

/-- What becomes of the line ends at the end of a block scalar. -/
inductive Chomping where
  | strip
  | clip
  | keep
  deriving DecidableEq, Repr

/-- What stands after the mark of a block scalar. -/
structure BlockHeader where
  chomping : Chomping := .clip
  /-- The columns added to the indentation around the scalar. -/
  increment : Option Nat := none
  deriving DecidableEq, Repr

namespace BlockHeader

/-- The indicator of what becomes of the last line ends. -/
def chomping? : List Char → Option (Chomping × List Char)
  | '+' :: cs => some (.keep, cs)
  | '-' :: cs => some (.strip, cs)
  | _ => none

/-- The indicator of the indentation, a digit. -/
def increment? : List Char → Option (Nat × List Char)
  | c :: cs => if c.isDigit then some (c.toNat - '0'.toNat, cs) else none
  | [] => none

/-- The two indicators of a header, in either order. -/
def indicators (cs : List Char) : BlockHeader × List Char :=
  match chomping? cs with
  | some (chomping, cs) =>
    match increment? cs with
    | some (n, cs) => (⟨chomping, some n⟩, cs)
    | none => (⟨chomping, none⟩, cs)
  | none =>
    match increment? cs with
    | some (n, cs) =>
      match chomping? cs with
      | some (chomping, cs) => (⟨chomping, some n⟩, cs)
      | none => (⟨.clip, some n⟩, cs)
    | none => (⟨.clip, none⟩, cs)

/-- A header, and the text from the next line on. -/
def read? (cs : List Char) : Option (BlockHeader × List Char) :=
  let (header, cs) := indicators cs
  let cs := cs.dropWhile isBlank
  let cs := if cs.head? == some '#' then cs.dropWhile (!isBreak ·) else cs
  if header.increment == some 0 || !atLineEnd cs then none else some (header, cs.drop 1)

end BlockHeader

/-- A line, and the character that ends it, if any. -/
structure Line where
  chars : List Char := []
  ending : List Char := []
  deriving DecidableEq, Repr

namespace Line

/-- The lines of a text. -/
def split : List Char → List Line
  | [] => []
  | c :: cs =>
    if isBreak c then ⟨[], [c]⟩ :: split cs
    else
      match split cs with
      | [] => [⟨[c], []⟩]
      | line :: lines => { line with chars := c :: line.chars } :: lines

/-- The text of lines. -/
def join (lines : List Line) : List Char := lines.flatMap fun line => line.chars ++ line.ending

/-- How many spaces a line begins with. -/
def indent (line : Line) : Nat := (line.chars.takeWhile (· == ' ')).length

/-- What a line is in a block scalar of some indentation. -/
inductive Role where
  /-- It has spaces only, and none past the indentation. -/
  | empty
  /-- It belongs to the scalar with what follows the indentation. -/
  | content (chars : List Char)
  /-- It is indented less, and the scalar ends before it. -/
  | outside
  /-- A tab stands in its indentation. -/
  | tabbed
  deriving DecidableEq, Repr

/-- The role of a line. -/
def role (line : Line) (indentation : Nat) : Role :=
  let spaces := min line.indent indentation
  match line.chars.drop spaces with
  | [] => .empty
  | c :: cs =>
    if spaces = indentation then .content (c :: cs)
    else if c == '\t' then .tabbed
    else .outside

end Line

/-- The widest indentation up to the first line that is not of spaces only. There is none where a
tab stands in it. -/
def widest? : List Line → Option Nat
  | [] => some 0
  | line :: lines =>
    match line.chars.drop line.indent with
    | [] => (widest? lines).map (max line.indent)
    | c :: _ => if c == '\t' then none else some line.indent

/-- The indentation of a block scalar, `least` being one more than that around it. -/
def blockIndent? (header : BlockHeader) (least : Nat) (lines : List Line) : Option Nat :=
  match header.increment with
  | some n => some (least - 1 + n)
  | none => (widest? lines).map fun n => max (max n least) 1

/-- The line ends since the last line of content. -/
structure BlockGap where
  /-- The line end of that line. -/
  first : List Char := []
  /-- Those of the empty lines after it. -/
  more : List Char := []
  /-- Whether that line began with a blank. -/
  indented : Bool := false
  deriving DecidableEq, Repr

/-- What the line ends before a further line contribute to the text. -/
def BlockGap.text (gap : BlockGap) (literal indented : Bool) : List Char :=
  if !literal && gap.first == ['\n'] && !gap.indented && !indented then
    if gap.more.isEmpty then [' '] else gap.more
  else gap.first ++ gap.more

/-- What the line ends at the end of the scalar contribute to it. -/
def BlockGap.tail (gap : BlockGap) : Chomping → List Char
  | .strip => []
  | .clip => gap.first
  | .keep => gap.first ++ gap.more

/-- The text of the lines that belong to a block scalar, and the lines after it. -/
def readLines (literal : Bool) (chomping : Chomping) (indentation : Nat) :
    BlockGap → List Line → Option (List Char × List Line)
  | gap, [] => some (gap.tail chomping, [])
  | gap, line :: lines =>
    match line.role indentation with
    | .empty =>
      readLines literal chomping indentation { gap with more := gap.more ++ line.ending } lines
    | .content cs =>
      let indented := cs.head?.any isBlank
      (readLines literal chomping indentation ⟨line.ending, [], indented⟩ lines).map
        fun (text, rest) => (gap.text literal indented ++ cs ++ text, rest)
    | .outside => some (gap.tail chomping, line :: lines)
    | .tabbed => none

/-- A block scalar after its mark, and the text after it. -/
def readBlock (literal : Bool) (least : Nat) (cs : List Char) :
    Option (List Char × List Char) := do
  let (header, cs) ← BlockHeader.read? cs
  let lines := Line.split cs
  let indentation ← blockIndent? header least lines
  let (text, rest) ← readLines literal header.chomping indentation {} lines
  return (text, Line.join rest)

end LogForwarder.Yaml
