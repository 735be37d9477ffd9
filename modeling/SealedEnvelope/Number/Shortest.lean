import SealedEnvelope.Number.Double
import SealedEnvelope.Text.Basic

/-!
# The shortest decimal of a double

A number is written with the fewest digits that read back as the same double, and among those with the
digits nearest to it. The decimals of a given length that could serve are the two neighbours of the
value on that grid, so each length needs two tests in exact arithmetic.
-/

namespace SealedEnvelope

namespace Double

/-- The decimals that round to a double: those between `low` and `high`, both in quarters of a unit,
the ends included when `closed`. -/
structure Interval where
  low : Nat
  high : Nat
  closed : Bool

/-- Halfway to the neighbours on both sides. Below a power of two the neighbour is half as far away. -/
def interval (units : Nat) : Interval :=
  let k := spacing units
  let gap := Nat.pow 2 k
  let below := if 0 < k ∧ units = Nat.pow 2 (52 + k) then gap else 2 * gap
  { low := 4 * units - below
    high := 4 * units + 2 * gap
    closed := units / gap % 2 = 0 }

/-- Whether `num / den` quarters of a unit lie in the interval. -/
def Interval.holds (i : Interval) (num den : Nat) : Bool :=
  if i.closed then i.low * den ≤ num && num ≤ i.high * den
  else i.low * den < num && num < i.high * den

/-- How many quarters of a unit make one. -/
def quartersPerOne : Nat := 4 * unitsPerOne

/-- The decimal with digits `digits` whose last digit stands for `10 ^ exponent`. -/
structure Decimal where
  digits : Nat
  exponent : Int

/-- The best decimal on the grid `10 ^ exponent`, if one of the two neighbours reads back. -/
def onGrid? (units : Nat) (exponent : Int) : Option Decimal :=
  let scaleUp := Nat.pow 10 (-exponent).toNat
  let step := quartersPerOne * Nat.pow 10 exponent.toNat
  let value := 4 * units * scaleUp
  let below := value / step
  let fits (n : Nat) : Bool := (interval units).holds (n * step) scaleUp
  match fits below && decide (0 < below), fits (below + 1) with
  | true, true =>
    let short := value - below * step
    let long := (below + 1) * step - value
    if short < long ∨ (short = long ∧ below % 2 = 0) then some ⟨below, exponent⟩
    else some ⟨below + 1, exponent⟩
  | true, false => some ⟨below, exponent⟩
  | false, true => some ⟨below + 1, exponent⟩
  | false, false => none

/-- The count `n` with `10 ^ (n - 1) ≤ value < 10 ^ n`. -/
def magnitude (units : Nat) : Int :=
  let whole := units / unitsPerOne
  if 0 < whole then (Nat.toDigits 10 whole).length
  else
    -(((List.range 330).find? fun z => unitsPerOne ≤ units * Nat.pow 10 (z + 1)).getD 0 : Nat)

/-- Ten on one grid is one on the next. Only a single digit can be rounded up to ten: a longer run of
nines lies next to a shorter decimal. -/
def Decimal.carried (d : Decimal) : Decimal :=
  if d.digits = 10 then ⟨1, d.exponent + 1⟩ else d

/-- The shortest decimal that reads back as the positive double `units`. Seventeen digits suffice. -/
def shortest (units : Nat) : Decimal :=
  let n := magnitude units
  (((List.range 17).findSome? fun d => onGrid? units (n - (d + 1 : Nat))).getD ⟨0, 0⟩).carried

/-- From this many integer digits on the exponent is written. -/
def integerDigits : Int := 21

/-- With this many zeros behind the point the exponent is written. -/
def leadingZeros : Int := 6

/-- Positional notation for moderate sizes, else one digit before the point and a signed exponent. -/
def Decimal.text (d : Decimal) : Text :=
  let digits := Text.ofNat d.digits
  let point : Int := digits.length + d.exponent
  if 0 < point ∧ point ≤ integerDigits then
    let p := point.toNat
    if digits.length ≤ p then digits ++ List.replicate (p - digits.length) 0x30
    else digits.take p ++ 0x2E :: digits.drop p
  else if -leadingZeros < point ∧ point ≤ 0 then
    0x30 :: 0x2E :: (List.replicate (-point).toNat 0x30 ++ digits)
  else
    let fraction := digits.drop 1
    let mantissa := digits.take 1 ++ (if fraction.isEmpty then [] else 0x2E :: fraction)
    let e := point - 1
    mantissa ++ 0x65 :: (if e < 0 then 0x2D else 0x2B) :: Text.ofNat e.natAbs

/-- A number in messages and, when finite, in JSON. -/
def text : Double → Text
  | .nan => "NaN"
  | .infinite negative => if negative then "-Infinity" else "Infinity"
  | .finite negative units =>
    if units = 0 then [0x30]
    else if negative then 0x2D :: (shortest units).text
    else (shortest units).text

end Double
end SealedEnvelope
