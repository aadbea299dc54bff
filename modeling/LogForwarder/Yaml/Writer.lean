import LogForwarder.Value
import LogForwarder.Yaml.Char
import LogForwarder.Yaml.Scalar

/-!
# Writing YAML text

Values are written in block style. A list stands under its key without further indentation, an
empty list or map is written `[]` or `{}`, and no line is folded.

1. `styleOf` chooses how a text is written: without quotes where it reads back as itself, in
   single quotes where it would read back as something else, as a literal block where it has line
   feeds, and in double quotes with escapes where it holds characters that are not printable or
   blanks in places where they would be lost.
2. `write` is the text of one document, and `writeStream` that of several, each after a line `---`.
-/

namespace LogForwarder.Yaml

/-! ## The style of a text -/

/-- How a text is written. -/
inductive Style where
  | plain
  | single
  | double
  | literal
  deriving DecidableEq, Repr

/-- Whether a character at the start of a text would be taken for syntax. -/
def isLeadingIndicator (c : Char) : Bool :=
  c ∈ ['#', ',', '[', ']', '\x7b', '\x7d', '&', '*', '!', '|', '>', '\'', '"', '%', '@', '`']

/-- Whether a mark inside a text would be taken for syntax: a colon before a blank, or a number
sign after one. -/
def hasInnerIndicator : List Char → Bool
  | [] => false
  | c :: rest =>
    (c == ':' && atBlankOrEnd rest) ||
      ((isBlank c || isBreak c) && rest.head? == some '#') || hasInnerIndicator rest

/-- Whether a text without quotes would be taken for syntax. -/
def hasIndicator (cs : List Char) : Bool :=
  let leading := match cs with
    | [] => false
    | c :: rest => isLeadingIndicator c || ((c == '?' || c == '-') && atBlankOrEnd rest)
  ['-', '-', '-'].isPrefixOf cs || ['.', '.', '.'].isPrefixOf cs || leading ||
    hasInnerIndicator cs

/-- Whether two neighbours in a text satisfy `first` and `second`. -/
def hasNeighbours (first second : Char → Bool) : List Char → Bool
  | c :: d :: rest => (first c && second d) || hasNeighbours first second (d :: rest)
  | _ => false

/-- Whether a character is the space. -/
def isSpace (c : Char) : Bool := c == ' '

/-- Whether no quoting but double quotes keeps a text: a character is not printable, or blanks
stand at the end of a line. -/
def needsEscapes (cs : List Char) : Bool :=
  !cs.all isPrintable || hasNeighbours isSpace isBreak cs

/-- Whether single quotes keep a text: a blank at the start of a line would be lost. -/
def singleAllowed (cs : List Char) : Bool :=
  !needsEscapes cs && !hasNeighbours isBreak isSpace cs

/-- Whether a text needs no quotes, whatever it spells. -/
def plainAllowed (cs : List Char) : Bool :=
  singleAllowed cs && !cs.any isBreak && !hasIndicator cs &&
    !cs.head?.any isSpace && !cs.getLast?.any isSpace

/-- Whether a literal block keeps a text. -/
def literalAllowed (cs : List Char) : Bool :=
  !needsEscapes cs && !cs.getLast?.any isSpace

/-- How a text is written. -/
def styleOf (s : String) : Style :=
  let cs := s.toList
  if '\n' ∈ cs then if literalAllowed cs then .literal else .double
  else if !isAmbiguous s && plainAllowed cs then .plain
  else if singleAllowed cs then .single
  else .double

/-! ## Scalars -/

/-- Spaces that lead to a column. -/
def pad (n : Nat) : List Char := List.replicate n ' '

/-- `n` in hexadecimal with capital letters, padded with zeros. -/
def hex (width n : Nat) : List Char :=
  let digits := (Nat.toDigits 16 n).map Char.toUpper
  List.replicate (width - digits.length) '0' ++ digits

/-- A character in double quotes. -/
def escape (c : Char) : List Char :=
  let n := c.toNat
  if n == 0x00 then ['\\', '0']
  else if n == 0x07 then ['\\', 'a']
  else if n == 0x08 then ['\\', 'b']
  else if n == 0x09 then ['\\', 't']
  else if n == 0x0A then ['\\', 'n']
  else if n == 0x0B then ['\\', 'v']
  else if n == 0x0C then ['\\', 'f']
  else if n == 0x0D then ['\\', 'r']
  else if n == 0x1B then ['\\', 'e']
  else if n == 0x85 then ['\\', 'N']
  else if n == 0x2028 then ['\\', 'L']
  else if n == 0x2029 then ['\\', 'P']
  else if c == '"' || c == '\\' then ['\\', c]
  else if isPrintable c then [c]
  else if n ≤ 0xFF then '\\' :: 'x' :: hex 2 n
  else if n ≤ 0xFFFF then '\\' :: 'u' :: hex 4 n
  else '\\' :: 'U' :: hex 8 n

/-- A text over several lines, each of which but the empty ones is indented. `fresh` says that
a line begins here. -/
def indented (indent : Nat) : Bool → List Char → List Char
  | _, [] => []
  | fresh, c :: cs =>
    if isBreak c then c :: indented indent true cs
    else (if fresh then pad indent else []) ++ c :: indented indent false cs

/-- The inside of single quotes: a quote is written twice. -/
def doubleQuotes : List Char → List Char
  | [] => []
  | c :: cs => if c = '\'' then '\'' :: '\'' :: doubleQuotes cs else c :: doubleQuotes cs

/-- What follows the bar of a literal block: the indentation when the text begins with a blank or
a line end, and what becomes of the line ends at its end. -/
def literalHeader (cs : List Char) : List Char :=
  let indentation := if cs.head?.any fun c => isSpace c || isBreak c then ['2'] else []
  let ending := match cs.reverse with
    | [] => ['-']
    | last :: before =>
      if !isBreak last then ['-']
      else if before.isEmpty || before.head?.any isBreak then ['+']
      else []
  indentation ++ ending

/-- A text in its style, further lines indented. -/
def textChars (indent : Nat) (s : String) : List Char :=
  let cs := s.toList
  match styleOf s with
  | .plain => cs
  | .single =>
    let atBreak := if cs.getLast?.any isBreak then pad indent else []
    '\'' :: indented indent false (doubleQuotes cs) ++ atBreak ++ ['\'']
  | .double => '"' :: cs.flatMap escape ++ ['"']
  | .literal => '|' :: literalHeader cs ++ '\n' :: indented indent true cs

/-- Whether a text in its style ends its line itself. -/
def endsLine (s : String) : Bool :=
  styleOf s == .literal && s.toList.getLast?.any isBreak

/-- A text in its style, to the end of its line. -/
def textLine (indent : Nat) (s : String) : List Char :=
  textChars indent s ++ if endsLine s then [] else ['\n']

/-- Floating point numbers have a point or an exponent. -/
def floatStyle : FloatStyle where
  positional := some (-5, 15)
  pointZero := true
  plusSign := false
  exponentDigits := 1
  infinity := ".inf"
  negInfinity := "-.inf"
  nan := ".nan"

/-- Whether a key stands before its colon on one line; others are introduced by `?`. -/
def isSimpleKey (key : String) : Bool :=
  !key.toList.any isBreak && key.utf8ByteSize ≤ 128

/-! ## Documents -/

mutual

/-- A value whose first line goes on from the cursor; its entries, or the further lines of a
text, are at column `indent`. -/
def block (indent : Nat) : Value → List Char
  | .null => "null\n".toList
  | .bool true => "true\n".toList
  | .bool false => "false\n".toList
  | .int n => (Numeral.decimal n).toList ++ ['\n']
  | .float x => (floatStyle.text x).toList ++ ['\n']
  | .str s => textLine indent s
  | .list [] => "[]\n".toList
  | .list (x :: xs) => (pad indent).intercalate (itemBlocks indent (x :: xs))
  | .map [] => "\x7b\x7d\n".toList
  | .map (m :: ms) => (pad indent).intercalate (memberBlocks indent (m :: ms))

/-- The items of a list at column `indent`. -/
def itemBlocks (indent : Nat) : List Value → List (List Char)
  | [] => []
  | v :: vs => ('-' :: ' ' :: block (indent + 2) v) :: itemBlocks indent vs

/-- The members of a map at column `indent`. -/
def memberBlocks (indent : Nat) : List (String × Value) → List (List Char)
  | [] => []
  | (key, v) :: ms =>
    let member :=
      if isSimpleKey key then
        textChars indent key ++ ':' ::
          match v with
          | .map (_ :: _) => '\n' :: pad (indent + 2) ++ block (indent + 2) v
          | .list (_ :: _) => '\n' :: pad indent ++ block indent v
          | _ => ' ' :: block (indent + 2) v
      else
        '?' :: ' ' :: textLine (indent + 2) key ++
          pad indent ++ ':' :: ' ' :: block (indent + 2) v
    member :: memberBlocks indent ms

end

/-- The characters of one document. -/
def document (v : Value) : List Char :=
  match v with
  | .str s => textLine 2 s
  | _ => block 0 v

/-- The text of one document. -/
def write (v : Value) : String := String.ofList (document v)

/-- The text of several documents. -/
def writeStream (vs : List Value) : String :=
  String.ofList (vs.flatMap fun v => '-' :: '-' :: '-' :: '\n' :: document v)

end LogForwarder.Yaml
