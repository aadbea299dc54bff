import LogForwarder.Number.Text

/-!
# Plain scalars

What an unquoted scalar of a YAML text stands for. The rules are those of the core schema of
YAML 1.2, with binary numerals as well: `null` and its spellings, `true` and `false` in three
cases each, decimal, hexadecimal, octal and binary integers, decimal fractions, infinities and
not-a-number. Everything else, digits with a leading zero included, is text.

The writer quotes a text exactly when it would otherwise be read as something else, so both sides
use this module.
-/

namespace LogForwarder.Yaml

/-- What an unquoted scalar stands for. -/
inductive Meaning where
  | null
  | bool (flag : Bool)
  /-- An integer of 64 bits, signed or unsigned. -/
  | int (n : Int)
  /-- An integer of 65 to 128 bits. -/
  | bigInt (n : Int)
  | float (x : Binary64)
  | text
  deriving DecidableEq, Repr

/-! ## The spellings -/

/-- Whether a scalar spells `null`. -/
def isNull (s : String) : Bool := s == "null" || s == "Null" || s == "NULL" || s == "~"

/-- The flag that a scalar spells. -/
def bool? (s : String) : Option Bool :=
  if s == "true" || s == "True" || s == "TRUE" then some true
  else if s == "false" || s == "False" || s == "FALSE" then some false
  else none

/-- Whether a scalar is a zero followed by more digits, with or without a sign: that is text. -/
def isZeroPadded (cs : List Char) : Bool :=
  let body := match cs with
    | '-' :: rest | '+' :: rest => rest
    | _ => cs
  match body with
  | '0' :: d :: rest => (d :: rest).all Char.isDigit
  | _ => false

/-- A numeral with a radix mark. -/
def marked? : List Char → Option Nat
  | '0' :: 'x' :: digits => Numeral.ofDigits? 16 digits
  | '0' :: 'o' :: digits => Numeral.ofDigits? 8 digits
  | '0' :: 'b' :: digits => Numeral.ofDigits? 2 digits
  | _ => none

/-- The scalar without a plus sign. -/
def dropPlus : List Char → List Char
  | '+' :: rest => rest
  | cs => cs

/-- The whole number that a scalar without a minus sign spells. -/
def unsigned? (cs : List Char) : Option Nat :=
  match marked? (dropPlus cs) with
  | some n => some n
  | none => if isZeroPadded cs then none else Numeral.ofDigits? 10 (dropPlus cs)

/-- The magnitude of the whole number that a scalar with a minus sign spells. -/
def negated? : List Char → Option Nat
  | '-' :: rest =>
    match marked? rest with
    | some n => some n
    | none => if isZeroPadded ('-' :: rest) then none else Numeral.ofDigits? 10 rest
  | _ => none

/-- The integer that a scalar spells, if it has at most 128 bits. -/
def integer? (cs : List Char) : Option Int :=
  match unsigned? cs with
  | some n => if n < 1 <<< 128 then some n else none
  | none =>
    match negated? cs with
    | some n => if n ≤ 1 <<< 127 then some (-(n : Int)) else none
    | none => none

/-- The decimal that digits with an optional point and exponent spell. -/
def decimal? (cs : List Char) : Option Scientific := do
  let whole := cs.takeWhile Char.isDigit
  let rest := cs.dropWhile Char.isDigit
  let (fraction, rest) : List Char × List Char := match rest with
    | '.' :: rest => (rest.takeWhile Char.isDigit, rest.dropWhile Char.isDigit)
    | _ => ([], rest)
  let digits ← Numeral.ofDigits? 10 (whole ++ fraction)
  let exponent ← match rest with
    | [] => some (0 : Int)
    | 'e' :: '-' :: e | 'E' :: '-' :: e => (Numeral.ofDigits? 10 e).map fun n => -(n : Int)
    | 'e' :: '+' :: e | 'E' :: '+' :: e => (Numeral.ofDigits? 10 e).map Int.ofNat
    | 'e' :: e | 'E' :: e => (Numeral.ofDigits? 10 e).map Int.ofNat
    | _ => none
  return ⟨digits, exponent - fraction.length⟩

/-- The floating point number that a scalar spells. A decimal past the greatest finite number
spells none. -/
def float? (s : String) : Option Binary64 :=
  let body := String.ofList (dropPlus s.toList)
  if body == ".inf" || body == ".Inf" || body == ".INF" then some .infinity
  else if s == "-.inf" || s == "-.Inf" || s == "-.INF" then some .negInfinity
  else if s == ".nan" || s == ".NaN" || s == ".NAN" then some .nan
  else
    let x := match s.toList with
      | '-' :: rest => (decimal? rest).map (Binary64.ofDecimal true)
      | cs => (decimal? (dropPlus cs)).map (Binary64.ofDecimal false)
    x.filter Binary64.isFinite

/-! ## Tags -/

/-- The tag of flags. -/
def boolTag : String := "tag:yaml.org,2002:bool"

/-- The tag of integers. -/
def intTag : String := "tag:yaml.org,2002:int"

/-- The tag of floating point numbers. -/
def floatTag : String := "tag:yaml.org,2002:float"

/-- The tag of `null`. -/
def nullTag : String := "tag:yaml.org,2002:null"

/-- The name of a tag that is local to a document. -/
def localTag? (tag : Option String) : Option String :=
  match tag.map String.toList with
  | some ('!' :: name) => some (String.ofList name)
  | _ => none

/-! ## The meaning -/

/-- Whether an integer fits 64 bits, signed or unsigned. -/
def fits64 (n : Int) : Bool := Int64.minValue.toInt ≤ n && n < UInt64.size

/-- What an unquoted scalar stands for. -/
def meaning (s : String) : Meaning :=
  if s == "" || isNull s then .null
  else
    match bool? s with
    | some flag => .bool flag
    | none =>
      match integer? s.toList with
      | some n => if fits64 n then .int n else .bigInt n
      | none =>
        if isZeroPadded s.toList then .text
        else
          match float? s with
          | some x => .float x
          | none => .text

/-- Whether a text, written without quotes, would not be taken for text by every reader. -/
def isAmbiguous (s : String) : Bool := meaning s != .text || isZeroPadded s.toList

end LogForwarder.Yaml
