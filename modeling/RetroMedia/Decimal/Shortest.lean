import RetroMedia.Decimal.Binary64

/-! Decimal text of double-precision numbers: the fewest digits that read back as the same number,
and among those the nearest. -/
namespace RetroMedia.Decimal

/-- Digits without trailing zeros and the power of ten of the last of them. -/
structure Digits where
  digits : Nat
  exponent : Int
  deriving DecidableEq, Repr

/-- The fractions that round to a number: its value, and the halfway points to its neighbours over
one denominator. The ends belong to the interval if the significand is even. -/
structure Interval where
  denominator : Nat
  low : Nat
  value : Nat
  high : Nat
  closed : Bool

namespace Interval

/-- Below a power of two the neighbours stand half as far apart. -/
def around (number : Binary64) : Interval :=
  let ulp := 4 * powerOf 2 number.exponent
  let denominator := 4 * powerOf 2 (-number.exponent)
  let value := number.significand * ulp
  let atBoundary := number.significand = Nat.pow 2 (Binary64.precision - 1)
    ∧ Binary64.minExponent < number.exponent
  { denominator
    low := value - (if atBoundary then ulp / 4 else ulp / 2)
    value
    high := value + ulp / 2
    closed := number.significand % 2 = 0 }

/-- Does `digits * 10 ^ exponent` lie in the interval? -/
def holds (interval : Interval) (digits : Nat) (exponent : Int) : Bool :=
  let point := digits * powerOf 10 exponent * interval.denominator
  let scale := powerOf 10 (-exponent)
  if interval.closed then interval.low * scale ≤ point && point ≤ interval.high * scale
  else interval.low * scale < point && point < interval.high * scale

/-- The multiple of `10 ^ exponent` at or below the value. -/
def floorAt (interval : Interval) (exponent : Int) : Nat :=
  interval.value * powerOf 10 (-exponent) / (interval.denominator * powerOf 10 exponent)

/-- Is the value at least as near to `digits` as to `digits + 1` on the grid of `10 ^ exponent`?
A value halfway between goes to the even one. -/
def nearerBelow (interval : Interval) (digits : Nat) (exponent : Int) : Bool :=
  let twice := 2 * interval.value * powerOf 10 (-exponent)
  let middle := (2 * digits + 1) * powerOf 10 exponent * interval.denominator
  twice < middle || (twice == middle && digits % 2 == 0)

/-- The grid point of `10 ^ exponent` that stands for the value, if one lies in the interval. -/
def pick? (interval : Interval) (exponent : Int) : Option Nat :=
  let below := interval.floorAt exponent
  match interval.holds below exponent, interval.holds (below + 1) exponent with
  | true, true => some (if interval.nearerBelow below exponent then below else below + 1)
  | true, false => some below
  | false, true => some (below + 1)
  | false, false => none

/-- Refine the grid until one of its points stands for the value. -/
def refine (interval : Interval) : Nat → Int → Digits
  | 0, exponent => ⟨interval.floorAt exponent, exponent⟩
  | steps + 1, exponent =>
    match interval.pick? exponent with
    | some digits => ⟨digits, exponent⟩
    | none => refine interval steps (exponent - 1)

/-- The power of ten of the value's first digit. -/
def leadingExponent (interval : Interval) : Int :=
  let whole := interval.value / interval.denominator
  if whole = 0 then -((Nat.toDigits 10 (interval.denominator / interval.value)).length : Int)
  else (Nat.toDigits 10 whole).length - 1

end Interval

/-- Digits that any number needs at most. -/
def maxDigits : Nat := 17

/-- The shortest digits that read back as a nonzero number. -/
def shortest (number : Binary64) : Digits :=
  let interval := Interval.around number
  interval.refine (maxDigits + 2) (interval.leadingExponent + 1)

/-- Where positional notation ends and how an exponent is written. -/
structure Style where
  /-- The least power of ten of a first digit that is written positionally. -/
  leastPositional : Int
  /-- The greatest such power. -/
  greatestPositional : Int

/-- Positional from 0.00001 up to, but not including, 10^16. -/
def plain : Style := ⟨-5, 15⟩

/-- The absolute value of a number in a style: positional with at least one decimal place, or one
digit before the point and an exponent with its sign. -/
def absText (style : Style) (number : Binary64) : String :=
  if number.isZero then "0.0"
  else
    let found := shortest number
    let digits := Nat.toDigits 10 found.digits
    let first := found.exponent + digits.length - 1
    if style.leastPositional ≤ first ∧ first ≤ style.greatestPositional then
      if 0 ≤ found.exponent then
        String.ofList (digits ++ List.replicate found.exponent.toNat '0') ++ ".0"
      else if first < 0 then
        "0." ++ String.ofList (List.replicate (-first - 1).toNat '0' ++ digits)
      else
        let whole := (first + 1).toNat
        String.ofList (digits.take whole) ++ "." ++ String.ofList (digits.drop whole)
    else
      let mantissa := match digits with
        | lead :: [] => String.ofList [lead]
        | lead :: rest => String.ofList (lead :: '.' :: rest)
        | [] => ""
      mantissa ++ "e" ++ (if first < 0 then "-" else "+") ++ toString first.natAbs

/-- A number in a style. -/
def text (style : Style) (number : Binary64) : String :=
  (if number.negative then "-" else "") ++ absText style number

end RetroMedia.Decimal
