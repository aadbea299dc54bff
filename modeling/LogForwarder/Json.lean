import LogForwarder.Number.Text
import LogForwarder.Value

/-!
# JSON text

`Json.write` prints a value on one line and `Json.read?` reads one back. An integer literal that
fits 64 bits, signed or unsigned, is an integer; every other number, and minus zero, is a floating
point number. Members of an object are sorted by key, and of two with one key the last counts.
-/

namespace LogForwarder.Json

/-! ## Writing -/

/-- Numbers in JSON text have a point or an exponent when they are floating point numbers. -/
def floatStyle : FloatStyle where
  positional := some (-5, 15)
  pointZero := true
  plusSign := false
  exponentDigits := 1
  infinity := "null"
  negInfinity := "null"
  nan := "null"

/-- The digits of a number below `16 ^ 4`, in hexadecimal and padded to four. -/
def hex4 (n : Nat) : List Char :=
  [n / 4096 % 16, n / 256 % 16, n / 16 % 16, n % 16].map Nat.digitChar

/-- A character inside quotes. -/
def escape (c : Char) : List Char :=
  if c = '"' then ['\\', '"']
  else if c = '\\' then ['\\', '\\']
  else if c = '\n' then ['\\', 'n']
  else if c.toNat < 32 then '\\' :: 'u' :: hex4 c.toNat
  else [c]

/-- A text in quotes. -/
def quote (s : String) : String :=
  String.ofList ('"' :: s.toList.flatMap escape ++ ['"'])

mutual

/-- A value on one line. -/
def write : Value → String
  | .null => "null"
  | .bool true => "true"
  | .bool false => "false"
  | .int n => Numeral.decimal n
  | .float x => floatStyle.text x
  | .str s => quote s
  | .list xs => "[" ++ ",".intercalate (writeItems xs) ++ "]"
  | .map ms => "\x7b" ++ ",".intercalate (writeMembers ms) ++ "\x7d"

/-- The items of a list. -/
def writeItems : List Value → List String
  | [] => []
  | v :: vs => write v :: writeItems vs

/-- The members of an object. -/
def writeMembers : List (String × Value) → List String
  | [] => []
  | (k, v) :: ms => (quote k ++ ":" ++ write v) :: writeMembers ms

end

/-! ## Reading -/

/-- The text after blanks. -/
def skipBlanks : List Char → List Char
  | c :: cs => if c = ' ' ∨ c = '\n' ∨ c = '\t' ∨ c = '\r' then skipBlanks cs else c :: cs
  | [] => []

/-- Four hexadecimal digits. -/
def readHex4 : List Char → Option (Nat × List Char)
  | a :: b :: c :: d :: rest => (Numeral.ofDigits? 16 [a, b, c, d]).map fun n => (n, rest)
  | _ => none

/-- The character that two halves of a surrogate pair stand for. -/
def joinSurrogates (high low : Nat) : Char :=
  Char.ofNat (0x10000 + (high - 0xD800) * 0x400 + (low - 0xDC00))

/-- The rest of a quoted text, and what follows the closing quote. -/
def readQuoted : Nat → List Char → Option (List Char × List Char)
  | 0, _ => none
  | _, [] => none
  | _, '"' :: rest => some ([], rest)
  | fuel + 1, '\\' :: 'u' :: rest => do
    let (n, rest) ← readHex4 rest
    if 0xD800 ≤ n ∧ n < 0xDC00 then
      match rest with
      | '\\' :: 'u' :: rest =>
        let (m, rest) ← readHex4 rest
        if 0xDC00 ≤ m ∧ m < 0xE000 then
          let (text, rest) ← readQuoted fuel rest
          return (joinSurrogates n m :: text, rest)
        else none
      | _ => none
    else if 0xDC00 ≤ n ∧ n < 0xE000 then none
    else
      let (text, rest) ← readQuoted fuel rest
      return (Char.ofNat n :: text, rest)
  | fuel + 1, '\\' :: c :: rest => do
    let plain ← match c with
      | '"' => some '"'
      | '\\' => some '\\'
      | '/' => some '/'
      | 'b' => some '\x08'
      | 'f' => some '\x0c'
      | 'n' => some '\n'
      | 'r' => some '\r'
      | 't' => some '\t'
      | _ => none
    let (text, rest) ← readQuoted fuel rest
    return (plain :: text, rest)
  | fuel + 1, c :: rest =>
    if c.toNat < 32 then none
    else (readQuoted fuel rest).map fun (text, rest) => (c :: text, rest)

/-- A run of digits, and what follows it. -/
def readDigits (cs : List Char) : List Char × List Char :=
  (cs.takeWhile Char.isDigit, cs.dropWhile Char.isDigit)

/-- An exponent after its letter. -/
def readExponent (cs : List Char) : Option (Int × List Char) :=
  let (negative, cs) : Bool × List Char := match cs with
    | '-' :: cs => (true, cs)
    | '+' :: cs => (false, cs)
    | cs => (false, cs)
  let (digits, rest) := readDigits cs
  (Numeral.ofDigits? 10 digits).map fun n => (if negative then -(n : Int) else n, rest)

/-- The value of an integer literal: an integer when it fits 64 bits, signed or unsigned. -/
def integerValue (negative : Bool) (n : Nat) : Value :=
  if negative then
    if 0 < n ∧ Int64.minValue.toInt ≤ -n then .int (-n) else .float (Binary64.ofDecimal true ⟨n, 0⟩)
  else if n < UInt64.size then .int n
  else .float (Binary64.ofDecimal false ⟨n, 0⟩)

/-- The digits after a point, if there is one. -/
def readFraction : List Char → Option (Option (List Char) × List Char)
  | '.' :: rest =>
    let (digits, rest) := readDigits rest
    if digits.isEmpty then none else some (some digits, rest)
  | rest => some (none, rest)

/-- The exponent, if there is one. -/
def readScale : List Char → Option (Option Int × List Char)
  | 'e' :: rest | 'E' :: rest => (readExponent rest).map fun (e, rest) => (some e, rest)
  | rest => some (none, rest)

/-- A number after its sign. -/
def readMagnitude (negative : Bool) (cs : List Char) : Option (Value × List Char) := do
  let (whole, rest) := readDigits cs
  let n ← Numeral.ofDigits? 10 whole
  guard ¬(1 < whole.length ∧ whole.head? = some '0')
  let (fraction, rest) ← readFraction rest
  let (exponent, rest) ← readScale rest
  if fraction.isNone ∧ exponent.isNone then return (integerValue negative n, rest)
  else
    let digits := fraction.getD []
    let value ← Numeral.ofDigits? 10 (whole ++ digits)
    let scale := exponent.getD 0 - digits.length
    return (.float (Binary64.ofDecimal negative ⟨value, scale⟩), rest)

/-- A number. -/
def readNumber : List Char → Option (Value × List Char)
  | '-' :: cs => readMagnitude true cs
  | cs => readMagnitude false cs

mutual

/-- A value, and the text after it. The first argument bounds the steps. -/
def readValue : Nat → List Char → Option (Value × List Char)
  | 0, _ => none
  | fuel + 1, cs =>
    match skipBlanks cs with
    | 'n' :: 'u' :: 'l' :: 'l' :: rest => some (.null, rest)
    | 't' :: 'r' :: 'u' :: 'e' :: rest => some (.bool true, rest)
    | 'f' :: 'a' :: 'l' :: 's' :: 'e' :: rest => some (.bool false, rest)
    | '"' :: rest => (readQuoted (rest.length + 1) rest).map fun (text, rest) =>
      (.str (String.ofList text), rest)
    | '[' :: rest =>
      match skipBlanks rest with
      | ']' :: rest => some (.list [], rest)
      | rest => (readItems fuel rest).map fun (items, rest) => (.list items, rest)
    | '\x7b' :: rest =>
      match skipBlanks rest with
      | '\x7d' :: rest => some (.map [], rest)
      | rest => (readMembers fuel rest).map fun (ms, rest) => (.map (Members.ofList ms), rest)
    | rest => readNumber rest

/-- The items of a list up to its closing bracket. -/
def readItems : Nat → List Char → Option (List Value × List Char)
  | 0, _ => none
  | fuel + 1, cs => do
    let (v, rest) ← readValue fuel cs
    match skipBlanks rest with
    | ',' :: rest =>
      let (vs, rest) ← readItems fuel rest
      return (v :: vs, rest)
    | ']' :: rest => return ([v], rest)
    | _ => none

/-- The members of an object up to its closing brace. -/
def readMembers : Nat → List Char → Option (List (String × Value) × List Char)
  | 0, _ => none
  | fuel + 1, cs => do
    let '"' :: rest := skipBlanks cs | none
    let (key, rest) ← readQuoted (rest.length + 1) rest
    let ':' :: rest := skipBlanks rest | none
    let (v, rest) ← readValue fuel rest
    match skipBlanks rest with
    | ',' :: rest =>
      let (ms, rest) ← readMembers fuel rest
      return ((String.ofList key, v) :: ms, rest)
    | '\x7d' :: rest => return ([(String.ofList key, v)], rest)
    | _ => none

end

/-- The value that a text holds. -/
def read? (text : String) : Option Value :=
  let cs := text.toList
  match readValue (cs.length + 1) cs with
  | some (v, rest) => if (skipBlanks rest).isEmpty then some v else none
  | none => none

end LogForwarder.Json
