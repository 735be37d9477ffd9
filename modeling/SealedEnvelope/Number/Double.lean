/-!
# Double precision numbers

A finite double is a sign and a whole number of units of `2 ^ -1074`, the smallest positive double.
In these units sums are exact, comparison is comparison of integers, and rounding is one division:
the representable magnitudes are the multiples of the spacing at their size.
-/

namespace SealedEnvelope

/-- A binary64 value. -/
inductive Double
  | nan
  | infinite (negative : Bool)
  | finite (negative : Bool) (units : Nat)
  deriving DecidableEq

namespace Double

/-- How many units make one. -/
def unitsPerOne : Nat := Nat.pow 2 1074

/-- The first magnitude, in units, that is too large for a double. -/
def overflow : Nat := Nat.pow 2 2098

/-- The spacing of the doubles from `units` on is `2 ^ spacing units` units. -/
def spacing (units : Nat) : Nat := Nat.log2 units - 52

/-- The integer nearest to a quotient; a half goes to the even one. -/
def roundHalfEven (num den : Nat) : Nat :=
  let q := num / den
  let r := num % den
  if den < 2 * r ∨ (2 * r = den ∧ q % 2 = 1) then q + 1 else q

/-- The representable magnitude nearest to `num / den` units. -/
def roundUnits (num den : Nat) : Nat :=
  let gap := Nat.pow 2 (spacing (num / den))
  roundHalfEven num (den * gap) * gap

def ofUnits (negative : Bool) (units : Nat) : Double :=
  if units < overflow then .finite negative units else .infinite negative

/-- The double nearest to `num / den`. -/
def ofRatio (negative : Bool) (num den : Nat) : Double :=
  ofUnits negative (roundUnits (num * unitsPerOne) den)

def ofNat (n : Nat) : Double := ofRatio false n 1

def ofInt : Int → Double
  | .ofNat n => ofRatio false n 1
  | .negSucc n => ofRatio true (n + 1) 1

/-- The double nearest to `mantissa * 10 ^ exponent`. Values that are certain to overflow or to vanish
are settled from their size, so that the work stays in proportion to the digits given. -/
def ofDecimal (negative : Bool) (mantissa : Nat) (exponent : Int) : Double :=
  if mantissa = 0 then .finite negative 0
  else match exponent with
    | .ofNat e =>
      if 400 < e then .infinite negative else ofRatio negative (mantissa * Nat.pow 10 e) 1
    | .negSucc e =>
      if Nat.log2 mantissa + 1201 < 3 * (e + 1) then .finite negative 0
      else ofRatio negative mantissa (Nat.pow 10 (e + 1))

/-- The signed magnitude of a finite double. -/
def signedUnits? : Double → Option Int
  | .finite negative units => some (if negative then -(units : Int) else units)
  | _ => none

/-- The integer that a double equals, if it does. -/
def toInt? : Double → Option Int
  | .finite negative units =>
    if units % unitsPerOne = 0 then
      let n : Int := (units / unitsPerOne : Nat)
      some (if negative then -n else n)
    else none
  | _ => none

/-- The integer part, toward zero. -/
def truncate? : Double → Option Int
  | .finite negative units =>
    let n : Int := (units / unitsPerOne : Nat)
    some (if negative then -n else n)
  | _ => none

def isFinite : Double → Bool
  | .finite _ _ => true
  | _ => false

/-- Strict order; false when either side is not a number. -/
def lt : Double → Double → Bool
  | .nan, _ => false
  | _, .nan => false
  | .infinite a, .infinite b => a && !b
  | .infinite a, .finite _ _ => a
  | .finite _ _, .infinite b => !b
  | .finite a m, .finite b n =>
    decide ((if a then -(m : Int) else m) < (if b then -(n : Int) else n))

/-- The sum, rounded once. -/
def add : Double → Double → Double
  | .nan, _ => .nan
  | _, .nan => .nan
  | .infinite a, .infinite b => if a = b then .infinite a else .nan
  | .infinite a, .finite _ _ => .infinite a
  | .finite _ _, .infinite b => .infinite b
  | .finite a m, .finite b n =>
    let sum : Int := (if a then -(m : Int) else m) + (if b then -(n : Int) else n)
    match sum with
    | .ofNat 0 => .finite (a && b) 0
    | .ofNat s => ofUnits false (roundUnits s 1)
    | .negSucc s => ofUnits true (roundUnits (s + 1) 1)

/-- `-0` read as `0`. -/
def unsignedZero : Double → Double
  | .finite _ 0 => .finite false 0
  | d => d

end Double
end SealedEnvelope
