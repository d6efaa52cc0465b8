/-
The fewest decimal digits that read back as a given number.

For one digit, two digits and so on, the two neighbours of the value on that decimal grid are read back; the first grid
on which one of them gives the value again wins, and of two such neighbours the nearer. Seventeen digits always suffice.
-/
import ClassNaming.Decimal.Real64

namespace ClassNaming.Real64

/-- the decimal exponent of `num / den`: the least `e` with `num / den < 10 ^ e`, near the guess from the bit lengths -/
def decimalExponent (num den : Nat) : Int :=
  let guess : Int := (((Nat.log2 num : Int) - Nat.log2 den) * 30103) / 100000
  let below (e : Int) : Bool := if 0 ≤ e then num < den * tenTo e.toNat else num * tenTo (-e).toNat < den
  ([guess - 1, guess, guess + 1, guess + 2].find? below).getD (guess + 3)

/-- `num / den · 10 ^ e` as a quotient -/
def shiftDecimal (num den : Nat) (e : Int) : Nat × Nat :=
  if 0 ≤ e then (num * tenTo e.toNat, den) else (num, den * tenTo (-e).toNat)

/-- the grid point of `count` digits that reads back as the number, if one does -/
def onGrid? (mantissa : Nat) (exponent : Int) (count : Nat) : Option (Nat × Int) :=
  let (num, den) := ratio mantissa exponent
  let top := decimalExponent num den
  let scale := (count : Int) - top
  let (a, b) := shiftDecimal num den scale
  let low := a / b
  let readsBack (d : Nat) : Bool := ofDecimal false d (-scale) == .finite false mantissa exponent
  let nearer := if 2 * (a % b) < b || (2 * (a % b) == b && low % 2 == 0) then low else low + 1
  let farther := if nearer == low then low + 1 else low
  if readsBack nearer then some (nearer, -scale)
  else if readsBack farther then some (farther, -scale)
  else none

/-- the first grid from `count` digits on, `fuel` grids at most, with a point that reads back -/
def firstGrid (mantissa : Nat) (exponent : Int) : Nat → Nat → Nat × Int
  | 0, _ => (mantissa, 0)
  | fuel + 1, count => (onGrid? mantissa exponent count).getD (firstGrid mantissa exponent fuel (count + 1))

/-- remove final zeros from a digit string, raising the exponent -/
def dropZeros : Nat → Nat → Int → Nat × Int
  | 0, d, e => (d, e)
  | fuel + 1, d, e => if d != 0 && d % 10 == 0 then dropZeros fuel (d / 10) (e + 1) else (d, e)

/-- the shortest decimal `digits · 10 ^ exponent` that reads back as a positive finite number -/
def shortest (mantissa : Nat) (exponent : Int) : Nat × Int :=
  let (d, e) := firstGrid mantissa exponent 17 1
  dropZeros 20 d e

end ClassNaming.Real64
