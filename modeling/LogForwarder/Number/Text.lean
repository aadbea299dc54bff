import LogForwarder.Number.Binary64

/-!
# Texts of numbers

Whole numbers are written in decimal; floating point numbers are written from their shortest
decimal, in a style that says where positional notation ends and how an exponent looks.
`Numeral.ofDigits?` and `Numeral.int?` read whole numbers back.
-/

namespace LogForwarder

namespace Numeral

/-! ## Whole numbers -/

/-- The decimal numeral of a whole number, with a minus sign when it is negative. -/
def decimal (n : Int) : String :=
  if n < 0 then String.ofList ('-' :: Nat.toDigits 10 n.natAbs)
  else String.ofList (Nat.toDigits 10 n.natAbs)

/-- The value of a digit in some radix up to sixteen, letters of either case counting from ten. -/
def digitValue? (radix : Nat) (c : Char) : Option Nat :=
  let value : Option Nat :=
    if '0' ≤ c ∧ c ≤ '9' then some (c.toNat - '0'.toNat)
    else if 'a' ≤ c ∧ c ≤ 'f' then some (c.toNat - 'a'.toNat + 10)
    else if 'A' ≤ c ∧ c ≤ 'F' then some (c.toNat - 'A'.toNat + 10)
    else none
  value.filter (· < radix)

/-- The number that digits in some radix spell, after a number `high` already read. -/
def ofDigitsFrom? (radix : Nat) : Nat → List Char → Option Nat
  | high, [] => some high
  | high, c :: cs => do ofDigitsFrom? radix (high * radix + (← digitValue? radix c)) cs

/-- The number that a nonempty list of digits in some radix spells. -/
def ofDigits? (radix : Nat) : List Char → Option Nat
  | [] => none
  | cs => ofDigitsFrom? radix 0 cs

/-- The whole number that a decimal numeral with an optional minus sign spells. -/
def int? (s : String) : Option Int :=
  match s.toList with
  | '-' :: cs => (ofDigits? 10 cs).map fun n => -(n : Int)
  | cs => (ofDigits? 10 cs).map Int.ofNat

end Numeral

/-! ## Floating point numbers -/

/-- How floating point numbers are written. -/
structure FloatStyle where
  /-- The exponents of the leading digit that are written positionally; `none` is all. -/
  positional : Option (Int × Int)
  /-- Whether a number without fraction digits is written with `.0`. -/
  pointZero : Bool
  /-- Whether a positive exponent has a plus sign. -/
  plusSign : Bool
  /-- The least count of exponent digits. -/
  exponentDigits : Nat
  infinity : String
  negInfinity : String
  nan : String

namespace FloatStyle

/-- Digits without the zeros at their end, and the count of those. -/
def trimZeros (cs : List Char) : List Char × Nat :=
  let zeros := (cs.reverse.takeWhile (· == '0')).length
  (cs.take (cs.length - zeros), zeros)

/-- Digits with the decimal point after the first `point` of them; zeros fill the gap on either
side. -/
def place (style : FloatStyle) (digits : List Char) (point : Int) : List Char :=
  if point ≤ 0 then ['0', '.'] ++ List.replicate (-point).toNat '0' ++ digits
  else
    let whole := point.toNat
    if digits.length ≤ whole then
      digits ++ List.replicate (whole - digits.length) '0' ++
        (if style.pointZero then ['.', '0'] else [])
    else digits.take whole ++ ['.'] ++ digits.drop whole

/-- An exponent, padded with zeros to the style's count of digits. -/
def exponentText (style : FloatStyle) (e : Int) : List Char :=
  let digits := Nat.toDigits 10 e.natAbs
  let sign := if e < 0 then ['-'] else if style.plusSign then ['+'] else []
  'e' :: sign ++ List.replicate (style.exponentDigits - digits.length) '0' ++ digits

/-- The text of a decimal. -/
def decimalText (style : FloatStyle) (d : Scientific) : List Char :=
  let (digits, zeros) := trimZeros (Nat.toDigits 10 d.digits)
  if digits.isEmpty then place style ['0'] 1
  else
    let leading : Int := digits.length + zeros + d.exponent - 1
    let positional := match style.positional with
      | none => true
      | some (low, high) => low ≤ leading && leading ≤ high
    if positional then place style digits (leading + 1)
    else
      let fraction := if digits.length = 1 then [] else '.' :: digits.drop 1
      digits.take 1 ++ fraction ++ exponentText style leading

/-- The text of a floating point number. -/
def text (style : FloatStyle) (x : Binary64) : String :=
  if x.isNaN then style.nan
  else if x.isInfinite then if x.isNegative then style.negInfinity else style.infinity
  else
    let magnitude := decimalText style x.shortest
    String.ofList (if x.isNegative then '-' :: magnitude else magnitude)

end FloatStyle

end LogForwarder
