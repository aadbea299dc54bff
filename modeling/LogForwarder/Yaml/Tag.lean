import LogForwarder.Number.Text
import LogForwarder.Yaml.Char
import LogForwarder.Yaml.Token

/-!
# Tags, anchors and directives

A tag is written in full between `!<` and `>`, or as a handle and a suffix. Either holds the
characters of a URI, and a percent sign leads the hexadecimal bytes of one character.
-/

namespace LogForwarder.Yaml

/-- A name of word characters, and what follows it. -/
def readWord (cs : List Char) : List Char × List Char :=
  (cs.takeWhile isWordChar, cs.dropWhile isWordChar)

/-- The name of an anchor, and what follows it. -/
def readAnchor (cs : List Char) : Option (String × List Char) :=
  let (name, rest) := readWord cs
  if name.isEmpty then none
  else if atBlankOrEnd rest || rest.head?.any (· ∈ ['?', ':', ',', ']', '\x7d', '%', '@', '`']) then
    some (String.ofList name, rest)
  else none

/-! ## Tags -/

/-- Whether a character may stand in a tag; those of flow collections only in a whole URI. -/
def isTagChar (whole : Bool) (c : Char) : Bool :=
  isWordChar c ||
    c ∈ [';', '/', '?', ':', '@', '&', '=', '+', '$', '.', '!', '~', '*', '\'', '(', ')'] ||
    (whole && c ∈ [',', '[', ']'])

/-- The byte after a percent sign, and what follows it. -/
def readByte? : List Char → Option (Nat × List Char)
  | '%' :: a :: b :: rest => (Numeral.ofDigits? 16 [a, b]).map fun n => (n, rest)
  | _ => none

/-- The further bytes of a character, after a number `high` already read. -/
def readTrailing : Nat → Nat → List Char → Option (Nat × List Char)
  | 0, high, cs => some (high, cs)
  | count + 1, high, cs => do
    let (byte, cs) ← readByte? cs
    if byte / 0x40 = 2 then readTrailing count (high * 0x40 + byte % 0x40) cs else none

/-- The character that its bytes in UTF-8 spell, and what follows it. -/
def readEscapedChar (cs : List Char) : Option (Char × List Char) := do
  let (byte, rest) ← readByte? cs
  let (n, rest) ←
    if byte < 0x80 then some (byte, rest)
    else if byte / 0x20 = 6 then readTrailing 1 (byte % 0x20) rest
    else if byte / 0x10 = 14 then readTrailing 2 (byte % 0x10) rest
    else if byte / 0x08 = 30 then readTrailing 3 (byte % 0x08) rest
    else none
  return (Char.ofNat n, rest)

/-- The characters of a tag, and what follows them. The first argument bounds their count. -/
def readTagChars (whole : Bool) : Nat → List Char → Option (List Char × List Char)
  | 0, cs => some ([], cs)
  | fuel + 1, cs =>
    match cs with
    | [] => some ([], [])
    | c :: rest =>
      if c = '%' then do
        let (c, rest) ← readEscapedChar cs
        let (text, rest) ← readTagChars whole fuel rest
        return (c :: text, rest)
      else if isTagChar whole c then
        (readTagChars whole fuel rest).map fun (text, rest) => (c :: text, rest)
      else some ([], cs)

/-- The rest of a tag, and what follows it. -/
def readUri (whole : Bool) (cs : List Char) : Option (List Char × List Char) :=
  readTagChars whole cs.length cs

/-- A tag handle from its exclamation mark on, and what follows it. -/
def readHandle : List Char → Option (List Char × List Char)
  | '!' :: cs =>
    let (word, rest) := readWord cs
    match rest with
    | '!' :: rest => some ('!' :: word ++ ['!'], rest)
    | _ => some ('!' :: word, rest)
  | _ => none

/-- Whether a handle ends with an exclamation mark of its own. -/
def isClosedHandle (handle : List Char) : Bool := 1 < handle.length && handle.getLast? == some '!'

/-- A tag from its exclamation mark on, and what follows it. -/
def readTag (inFlow : Bool) (cs : List Char) : Option (Token × List Char) := do
  let (handle, suffix, rest) ← match cs with
    | '!' :: '<' :: cs => do
      let (suffix, rest) ← readUri true cs
      let '>' :: rest := rest | none
      if suffix.isEmpty then none else some ([], suffix, rest)
    | _ => do
      let (handle, rest) ← readHandle cs
      let (suffix, rest) ← readUri false rest
      if isClosedHandle handle then
        if suffix.isEmpty then none else some (handle, suffix, rest)
      else if handle.length = 1 ∧ suffix.isEmpty then some ([], ['!'], rest)
      else some (['!'], handle.drop 1 ++ suffix, rest)
  if atBlankOrEnd rest || (inFlow && rest.head? == some ',') then
    some (.tag (String.ofList handle) (String.ofList suffix), rest)
  else none

/-! ## Directives -/

/-- A number of a version, and what follows it. -/
def readVersionNumber (cs : List Char) : Option (Nat × List Char) :=
  let digits := cs.takeWhile Char.isDigit
  if digits.length ≤ 9 then
    (Numeral.ofDigits? 10 digits).map fun n => (n, cs.dropWhile Char.isDigit)
  else none

/-- What follows the name of a directive, and the text after that. -/
def readDirectiveBody (name cs : List Char) : Option (Token × List Char) := do
  let cs := cs.dropWhile isBlank
  if name = ['Y', 'A', 'M', 'L'] then
    let (major, cs) ← readVersionNumber cs
    let '.' :: cs := cs | none
    let (minor, cs) ← readVersionNumber cs
    return (.version major minor, cs)
  else if name = ['T', 'A', 'G'] then
    let (handle, cs) ← readHandle cs
    if !(handle.length = 1 || isClosedHandle handle) || !cs.head?.any isBlank then none
    let (uri, cs) ← readUri true (cs.dropWhile isBlank)
    if uri.isEmpty || !atBlankOrEnd cs then none
    return (.handle (String.ofList handle) (String.ofList uri), cs)
  else none

/-- A directive after its percent sign, and what follows its line. -/
def readDirective (cs : List Char) : Option (Token × List Char) := do
  let (name, cs) := readWord cs
  if name.isEmpty || !atBlankOrEnd cs then none
  let (token, cs) ← readDirectiveBody name cs
  let cs := cs.dropWhile isBlank
  let cs := if cs.head? == some '#' then cs.dropWhile (!isBreak ·) else cs
  if atLineEnd cs then some (token, cs.drop 1) else none

end LogForwarder.Yaml
