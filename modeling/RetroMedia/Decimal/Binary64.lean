/-! Double-precision numbers in exact arithmetic. A finite number is a significand below 2^53 times
a power of two; every result is the nearest such number, and of two equally near ones the one with
the even significand. -/
namespace RetroMedia

/-- A power of the base, or one if the exponent is negative. A fraction is scaled
by `base ^ exponent` if its numerator is multiplied by this and its denominator by the power of
`-exponent`. -/
def powerOf (base : Nat) (exponent : Int) : Nat := Nat.pow base exponent.toNat

/-- A finite double-precision number: `significand * 2 ^ exponent`, with its sign apart, so that
zero has two forms. -/
structure Binary64 where
  negative : Bool
  significand : Nat
  exponent : Int
  deriving DecidableEq, Repr

namespace Binary64

/-- The bits of a significand. -/
def precision : Nat := 53

/-- The exponent of the smallest positive number. -/
def minExponent : Int := -1074

/-- The greatest exponent of a finite number. -/
def maxExponent : Int := 971

/-- The whole part of `numerator / denominator / 2 ^ exponent`, rounded to the nearest number and
to an even one in a tie. -/
def roundAt (numerator denominator : Nat) (exponent : Int) : Nat :=
  let scaledUp := numerator * powerOf 2 (-exponent)
  let scaledDown := denominator * powerOf 2 exponent
  let whole := scaledUp / scaledDown
  let rest := 2 * (scaledUp % scaledDown)
  if scaledDown < rest then whole + 1
  else if rest = scaledDown then whole + whole % 2
  else whole

/-- The exponent at which a positive fraction has a significand of full precision. -/
def fittingExponent (numerator denominator : Nat) : Int :=
  let guess := (Nat.log2 numerator : Int) - Nat.log2 denominator - (precision - 1 : Nat)
  let scaledUp := numerator * powerOf 2 (-guess)
  let scaledDown := denominator * powerOf 2 guess
  let tooLow := scaledDown * Nat.pow 2 precision ≤ scaledUp
  let tooHigh := scaledUp < scaledDown * Nat.pow 2 (precision - 1)
  let fitting := if tooLow then guess + 1 else if tooHigh then guess - 1 else guess
  max fitting minExponent

/-- The number nearest to a fraction, unless that lies beyond the greatest finite one. -/
def round? (negative : Bool) (numerator denominator : Nat) : Option Binary64 :=
  if numerator = 0 then some ⟨negative, 0, minExponent⟩
  else
    let exponent := fittingExponent numerator denominator
    let significand := roundAt numerator denominator exponent
    let carried :=
      if significand = Nat.pow 2 precision then (Nat.pow 2 (precision - 1), exponent + 1)
      else (significand, exponent)
    if maxExponent < carried.2 then none else some ⟨negative, carried.1, carried.2⟩

def isZero (number : Binary64) : Bool := number.significand == 0

/-- The absolute value as a fraction. -/
def fraction (number : Binary64) : Nat × Nat :=
  (number.significand * powerOf 2 number.exponent, powerOf 2 (-number.exponent))

def negate (number : Binary64) : Binary64 := { number with negative := !number.negative }

/-- The number nearest to a natural number. -/
def ofNat? (value : Nat) : Option Binary64 := round? false value 1

def mul? (a b : Binary64) : Option Binary64 :=
  round? (a.negative != b.negative) (a.fraction.1 * b.fraction.1) (a.fraction.2 * b.fraction.2)

/-- The quotient of two numbers, the second of which is not zero. -/
def div? (a b : Binary64) : Option Binary64 :=
  round? (a.negative != b.negative) (a.fraction.1 * b.fraction.2) (a.fraction.2 * b.fraction.1)

end Binary64
end RetroMedia
