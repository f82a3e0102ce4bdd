import ApiDescription.Decimal.Binary64

/-!
# Shortest decimal text

The text of a binary64 number has the fewest digits that round back to the
number, and of those the nearest to it. Small and large numbers are written with
an exponent, all others with a point that at least one digit follows.
-/

namespace ApiDescription.Binary64

/-- The decimals that round to a number, in quarters of the unit in its last place: those
between `low` and `high`, around `value`. The ends belong to them if `closed` says so. -/
structure Interval where
  low : Nat
  value : Nat
  high : Nat
  closed : Bool

/-- The decimals that round to `significand · 2 ^ exponent`. The neighbour below a power
of two is half as far as the one above. The ends belong to the interval when the
significand is even. -/
def interval (significand : Nat) (exponent : Int) : Interval :=
  let narrow := significand = Nat.pow 2 52 && leastExponent < exponent
  { low := if narrow then 4 * significand - 1 else 4 * significand - 2
    value := 4 * significand
    high := 4 * significand + 2
    closed := significand % 2 = 0 }

/-- Whether a multiple of a power of ten lies in an interval. Both are given over
a common unit. -/
def Interval.holds (low high : Nat) (closed : Bool) (point : Nat) : Bool :=
  if closed then low ≤ point && point ≤ high else low < point && point < high

/-- The decimal nearest to the value among those that are a multiple of
`10 ^ place` and lie in the interval. Only the two neighbours of the value on that
grid have to be looked at. -/
def onGrid (bounds : Interval) (exponent : Int) (place : Int) : Option Nat :=
  -- Everything is multiplied by the same factor, which makes the grid step `step`.
  let (scaleUp, step) : Nat × Nat :=
    match exponent - 2, place with
    | .ofNat two, .ofNat ten => (Nat.pow 2 two, Nat.pow 10 ten)
    | .ofNat two, .negSucc ten => (Nat.pow 2 two * Nat.pow 10 (ten + 1), 1)
    | .negSucc two, .ofNat ten => (1, Nat.pow 10 ten * Nat.pow 2 (two + 1))
    | .negSucc two, .negSucc ten => (Nat.pow 10 (ten + 1), Nat.pow 2 (two + 1))
  let low := bounds.low * scaleUp
  let value := bounds.value * scaleUp
  let high := bounds.high * scaleUp
  let below := value / step
  let holds := fun multiple => Interval.holds low high bounds.closed (multiple * step)
  let twice := 2 * (value - below * step)
  let lowerFirst := twice < step || (twice = step && below % 2 = 0)
  if lowerFirst then
    if holds below then some below else if holds (below + 1) then some (below + 1) else none
  else
    if holds (below + 1) then some (below + 1) else if holds below then some below else none

/-- The place of the first digit of a positive number, counted from the point: the
number lies below `10 ^ place` and not below a tenth of it. -/
def leadingPlace (significand : Nat) (exponent : Int) : Int :=
  match exponent with
  | .ofNat up => digitCount (significand * Nat.pow 2 up)
  | .negSucc down =>
    -- The number is `significand · 5 ^ k / 10 ^ k` for `k = down + 1`.
    (digitCount (significand * Nat.pow 5 (down + 1)) : Int) - (down + 1)

/-- The first grid from `count` digits on that meets the interval. -/
def firstGrid (bounds : Interval) (exponent leading : Int) : (tries count : Nat) → Nat × Int
  | 0, _ => (bounds.value / 4, exponent)
  | tries + 1, count =>
    match onGrid bounds exponent (leading - count) with
    | some multiple => (multiple, leading - count)
    | none => firstGrid bounds exponent leading tries (count + 1)

/-- Drops the zeros at the end of a list of digits. -/
def withoutTrailingZeros (digits : List Char) : List Char :=
  (digits.reverse.dropWhile (· = '0')).reverse

/-- The digits of a positive number, and the place of its point behind the start
of the digits. -/
def shortestDigits (significand : Nat) (exponent : Int) : List Char × Int :=
  let leading := leadingPlace significand exponent
  let (multiple, place) := firstGrid (interval significand exponent) exponent leading 17 1
  let digits := Nat.toDigits 10 multiple
  (withoutTrailingZeros digits, place + digits.length)

/-- Digits with a point: positional from 0.0001 up to below 10 ^ 16, with an exponent
of at least two digits otherwise. -/
def layout (digits : List Char) (point : Int) : List Char :=
  if -4 < point ∧ point ≤ 16 then
    match point with
    | .ofNat (before + 1) =>
      let whole := digits.take (before + 1)
      let zeros := List.replicate (before + 1 - digits.length) '0'
      let fraction := digits.drop (before + 1)
      whole ++ zeros ++ '.' :: (if fraction.isEmpty then ['0'] else fraction)
    | _ => '0' :: '.' :: (List.replicate (-point).toNat '0' ++ digits)
  else
    let power := point - 1
    let fraction := digits.drop 1
    let size := Nat.toDigits 10 power.natAbs
    digits.take 1 ++ (if fraction.isEmpty then [] else '.' :: fraction) ++
      ['e', if power < 0 then '-' else '+'] ++
      (if size.length < 2 then '0' :: size else size)

/-- The text of a number. -/
def text : Binary64 → String
  | .infinite negative => if negative then "-inf" else "inf"
  | .finite negative significand exponent =>
    let body :=
      if significand = 0 then ['0', '.', '0']
      else
        let (digits, point) := shortestDigits significand exponent
        layout digits point
    String.ofList (if negative then '-' :: body else body)

end ApiDescription.Binary64
