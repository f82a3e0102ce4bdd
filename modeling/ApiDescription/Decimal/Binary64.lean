/-!
# Decimal numbers in binary64

A decimal numeral names an exact number. Rounding takes it to the nearest number
with 53 significant bits and an exponent in the range of binary64; of two equally
near ones the one with an even significand is taken. All arithmetic is exact.
-/

namespace ApiDescription

/-- The number `digits · 10 ^ exponent`, with a sign that zero may have, too. -/
structure Decimal where
  negative : Bool
  digits : Nat
  exponent : Int
  deriving DecidableEq, Repr, Inhabited

/-- A number of binary64 that is not a NaN: `significand · 2 ^ exponent` or infinity. -/
inductive Binary64 where
  | finite (negative : Bool) (significand : Nat) (exponent : Int)
  | infinite (negative : Bool)
  deriving DecidableEq, Repr, Inhabited

namespace Binary64

/-- The quotient rounded to the nearest integer, a half to the even neighbour. -/
def divideToEven (numerator denominator : Nat) : Nat :=
  let quotient := numerator / denominator
  let twice := 2 * (numerator % denominator)
  if twice < denominator then quotient
  else if denominator < twice then quotient + 1
  else if quotient % 2 = 0 then quotient
  else quotient + 1

/-- The least exponent of binary64. -/
def leastExponent : Int := -1074

/-- The greatest exponent of binary64. -/
def greatestExponent : Int := 971

/-- The fraction scaled by a power of two: `numerator / denominator / 2 ^ exponent`. -/
def scaled (numerator denominator : Nat) (exponent : Int) : Nat × Nat :=
  match exponent with
  | .ofNat up => (numerator, denominator * Nat.pow 2 up)
  | .negSucc down => (numerator * Nat.pow 2 (down + 1), denominator)

/-- A positive fraction rounded to binary64. The exponent is the least that leaves
no more than 53 bits before the point. -/
def ofFraction (negative : Bool) (numerator denominator : Nat) : Binary64 :=
  let guess : Int := (numerator.log2 : Int) - denominator.log2 - 52
  let first := scaled numerator denominator guess
  let exponent := max leastExponent (if first.1 / first.2 < Nat.pow 2 52 then guess - 1 else guess)
  let (above, below) := scaled numerator denominator exponent
  let rounded := divideToEven above below
  let (significand, exponent) :=
    if rounded = Nat.pow 2 53 then (Nat.pow 2 52, exponent + 1) else (rounded, exponent)
  if greatestExponent < exponent then .infinite negative
  else .finite negative significand exponent

/-- The number of decimal digits of a positive number. -/
def digitCount (value : Nat) : Nat := (Nat.toDigits 10 value).length

/-- A decimal rounded to binary64. Numbers far outside the range are decided by
their order of magnitude, so that no huge power of ten is computed. -/
def ofDecimal (decimal : Decimal) : Binary64 :=
  let magnitude : Int := decimal.exponent + digitCount decimal.digits
  if decimal.digits = 0 ∨ magnitude < -330 then .finite decimal.negative 0 leastExponent
  else if 320 < magnitude then .infinite decimal.negative
  else
    match decimal.exponent with
    | .ofNat up => ofFraction decimal.negative (decimal.digits * Nat.pow 10 up) 1
    | .negSucc down => ofFraction decimal.negative decimal.digits (Nat.pow 10 (down + 1))

/-- Whether the number is zero. -/
def isZero : Binary64 → Bool
  | .finite _ significand _ => significand = 0
  | .infinite _ => false

/-- The number as an integer, if it is one. -/
def toInt? : Binary64 → Option Int
  | .infinite _ => none
  | .finite negative significand exponent =>
    let size? :=
      match exponent with
      | .ofNat up => some (significand * Nat.pow 2 up)
      | .negSucc down =>
        let unit := Nat.pow 2 (down + 1)
        if significand % unit = 0 then some (significand / unit) else none
    size?.map fun size => if negative then -(size : Int) else size

end Binary64

end ApiDescription
