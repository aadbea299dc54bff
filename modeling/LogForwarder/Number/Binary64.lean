/-!
# Binary floating point numbers

The 64-bit floating point numbers a manifest or an API object can hold, decoded and rounded in
exact integer arithmetic.

1. `Binary64.ofDecimal` is the number nearest to `digits * 10 ^ exponent`, ties to even.
2. `Binary64.shortest` is the shortest decimal that rounds to a number: the least count of digits
   for which a decimal lies in the interval of reals that round to it, and the nearest such one.
-/

namespace LogForwarder

/-- A 64-bit floating point number, by its bit pattern. -/
structure Binary64 where
  bits : UInt64
  deriving DecidableEq, Repr

/-- A decimal `digits * 10 ^ exponent`. -/
structure Scientific where
  digits : Nat
  exponent : Int
  deriving DecidableEq, Repr

namespace Binary64

/-! ## Parts -/

/-- The sign bit. -/
def isNegative (x : Binary64) : Bool := 1 <<< 63 ≤ x.bits.toNat

/-- The eleven exponent bits. -/
def exponentBits (x : Binary64) : Nat := (x.bits.toNat >>> 52) % 2048

/-- The fifty-two fraction bits. -/
def fractionBits (x : Binary64) : Nat := x.bits.toNat % (1 <<< 52)

/-- Whether a bit pattern is no number. -/
def isNaN (x : Binary64) : Bool := x.exponentBits == 2047 && x.fractionBits != 0

/-- Whether a number is infinite. -/
def isInfinite (x : Binary64) : Bool := x.exponentBits == 2047 && x.fractionBits == 0

/-- Whether a number is zero, of either sign. -/
def isZero (x : Binary64) : Bool := x.exponentBits == 0 && x.fractionBits == 0

/-- Whether a number is finite. -/
def isFinite (x : Binary64) : Bool := x.exponentBits != 2047

/-- The whole-number significand of a finite number: its magnitude is
`significand * 2 ^ scale`. -/
def significand (x : Binary64) : Nat :=
  if x.exponentBits = 0 then x.fractionBits else (1 <<< 52) + x.fractionBits

/-- The power of two that the significand is scaled by. -/
def scale (x : Binary64) : Int :=
  if x.exponentBits = 0 then -1074 else (x.exponentBits : Int) - 1075

/-- The positive infinity. -/
def infinity : Binary64 := ⟨0x7FF0000000000000⟩

/-- The negative infinity. -/
def negInfinity : Binary64 := ⟨0xFFF0000000000000⟩

/-- What is no number. -/
def nan : Binary64 := ⟨0x7FF8000000000000⟩

/-! ## Rounding a decimal -/

/-- `num / den` rounded to the nearest whole number, ties to even. -/
def roundDiv (num den : Nat) : Nat :=
  let q := num / den
  let r := num % den
  if 2 * r < den then q
  else if den < 2 * r then q + 1
  else q + q % 2

/-- `num / den` divided by `2 ^ e` and rounded to the nearest whole number. -/
def roundScaled (num den : Nat) (e : Int) : Nat :=
  if 0 ≤ e then roundDiv num (den <<< e.toNat) else roundDiv (num <<< (-e).toNat) den

/-- `num / den` divided by `2 ^ e`, rounded down. -/
def floorScaled (num den : Nat) (e : Int) : Nat :=
  if 0 ≤ e then num / (den <<< e.toNat) else (num <<< (-e).toNat) / den

/-- The scale at which `num / den` has a significand of fifty-three bits, or the least scale. -/
def scaleOf (num den : Nat) : Int :=
  let guess : Int := (num.log2 : Int) - (den.log2 : Int) - 52
  let e := if floorScaled num den guess < 1 <<< 52 then guess - 1 else guess
  max e (-1074)

/-- The bit pattern of the magnitude nearest to `num / den`. Adding the significand with its
leading bit to an exponent one too low gives the pattern of every finite number, subnormal or
not; a magnitude past the greatest of them is infinite. -/
def magnitudeBits (num den : Nat) : Nat :=
  if num = 0 then 0
  else
    let e := scaleOf num den
    min (((e + 1074).toNat <<< 52) + roundScaled num den e) (2047 <<< 52)

/-- The number nearest to `± digits * 10 ^ exponent`. Exponents so far out that the result is
zero or infinite whatever the digits are cut off before the power is computed. -/
def ofDecimal (negative : Bool) (d : Scientific) : Binary64 :=
  let size : Int := (Nat.toDigits 10 d.digits).length + d.exponent
  let magnitude :=
    if d.digits = 0 ∨ size < -400 then 0
    else if 400 < size then 2047 <<< 52
    else if 0 ≤ d.exponent then magnitudeBits (d.digits * Nat.pow 10 d.exponent.toNat) 1
    else magnitudeBits d.digits (Nat.pow 10 (-d.exponent).toNat)
  ⟨UInt64.ofNat (magnitude + if negative then 1 <<< 63 else 0)⟩

/-! ## The shortest decimal -/

/-- `m * 2 ^ e * 10 ^ k` as a fraction of whole numbers. -/
def fraction (m : Nat) (e k : Int) : Nat × Nat :=
  ((m <<< e.toNat) * Nat.pow 10 k.toNat, (1 <<< (-e).toNat) * Nat.pow 10 (-k).toNat)

/-- The exponent of the leading decimal digit of `m * 2 ^ e`, for `0 < m` and `-1074 ≤ e`. -/
def leadingExponent (m : Nat) (e : Int) : Int :=
  let (num, den) := fraction m e 400
  ((Nat.toDigits 10 (num / den)).length : Int) - 401

/-- The answer of `accept` at the first power of ten among `k`, `k - 1`, … that it takes. -/
def firstGrid {α : Type} (accept : Int → Option α) : Nat → Int → Option α
  | 0, _ => none
  | n + 1, k => (accept k).orElse fun _ => firstGrid accept n (k - 1)

/-- The decimal on the grid of multiples of `10 ^ k` that is nearest to `x` among those that
round to `x`, if there is one. The ends of the interval round to `x` when its significand is
even, and the interval is narrower below a power of two. -/
def onGrid (x : Binary64) (k : Int) : Option Scientific :=
  let m := x.significand
  let e := x.scale
  let even := m % 2 = 0
  let narrow := m = 1 <<< 52 ∧ -1074 < e
  -- everything in units of a quarter of the last place, over a common denominator
  let (v, den) := fraction (4 * m) (e - 2) (-k)
  let (unit, _) := fraction 1 (e - 2) (-k)
  let low := v - (if narrow then unit else 2 * unit)
  let high := v + 2 * unit
  let inside (n : Nat) : Bool :=
    if even then low ≤ n * den && n * den ≤ high else low < n * den && n * den < high
  let below := v / den
  let above := below + 1
  let nearBelow : Bool := v - below * den < above * den - v ||
    (v - below * den == above * den - v && below % 2 == 0)
  match inside below && below != 0, inside above with
  | true, true => some ⟨if nearBelow then below else above, k⟩
  | true, false => some ⟨below, k⟩
  | false, true => some ⟨above, k⟩
  | false, false => none

/-- The shortest decimal that rounds to the magnitude of a finite number. Seventeen digits
always suffice. -/
def shortest (x : Binary64) : Scientific :=
  if x.significand = 0 then ⟨0, 0⟩
  else
    (firstGrid x.onGrid 18 (leadingExponent x.significand x.scale)).getD ⟨0, 0⟩

end Binary64

end LogForwarder
