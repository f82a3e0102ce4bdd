import ApiDescription.Decimal.Binary64

/-!
# Decimal numerals

A numeral is a number as it is written: a sign, the digits before and behind a
point, and an exponent. Without digits behind a point and without an exponent it is
an integer. The conversion of integers from and to decimal digits is limited to a
number of digits; other numbers are not limited.
-/

namespace ApiDescription

/-- A number in decimal notation. -/
structure Numeral where
  negative : Bool
  whole : List Char
  fraction : List Char
  exponent : Option Int
  deriving DecidableEq, Repr, Inhabited

namespace Numeral

/-- The number of decimal digits that an integer may have. -/
def maxDigits : Nat := 4300

/-- The value of decimal digits. -/
def natOfDigits (digits : List Char) : Nat :=
  digits.foldl (fun value digit => 10 * value + (digit.toNat - '0'.toNat)) 0

/-- Whether a numeral is an integer. -/
def isInteger (numeral : Numeral) : Bool :=
  numeral.fraction.isEmpty && numeral.exponent.isNone

/-- Whether a numeral has no more digits than an integer may have, if it is one. -/
def isConvertible (numeral : Numeral) : Bool :=
  !numeral.isInteger || numeral.whole.length ≤ maxDigits

/-- The value of the digits before the point. -/
def integer (numeral : Numeral) : Int :=
  let size : Int := natOfDigits numeral.whole
  if numeral.negative then -size else size

/-- The value of all digits and the exponent. -/
def decimal (numeral : Numeral) : Decimal :=
  { negative := numeral.negative
    digits := natOfDigits (numeral.whole ++ numeral.fraction)
    exponent := numeral.exponent.getD 0 - numeral.fraction.length }

/-- Whether an integer has no more digits than may be shown. -/
def isShowable (value : Int) : Bool := value.natAbs < Nat.pow 10 maxDigits

end Numeral

end ApiDescription
