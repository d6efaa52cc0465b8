/-
Binary floating point numbers of 53 significant bits, as exact values.

A finite number is a sign, a mantissa and a power of two; `Real64.ofRatio` rounds a quotient of naturals to the nearest
one, a tie going to the even mantissa, and `Real64.ofDecimal` reads `digits · 10 ^ exponent` through it. Everything is
arithmetic on naturals, so equality of numbers is equality of values of this type (for results of `ofRatio`, which
are normalised: the mantissa has 53 bits, or the exponent is least).
-/

namespace ClassNaming

/-- a binary64 number -/
inductive Real64 where
  | nan
  | infinite (negative : Bool)
  | finite (negative : Bool) (mantissa : Nat) (exponent : Int)
deriving DecidableEq, Repr, Inhabited

namespace Real64

/-- the least exponent of a finite number -/
def minExponent : Int := -1074

/-- the greatest exponent of a finite number with a full mantissa -/
def maxExponent : Int := 971

/-- `num / den` to the nearest natural, a tie going to the even one -/
def roundDiv (num den : Nat) : Nat :=
  let q := num / den
  let r := num % den
  if 2 * r < den then q
  else if den < 2 * r then q + 1
  else if q % 2 == 0 then q else q + 1

/-- `num / (den · 2 ^ e)` to the nearest natural -/
def roundScaled (num den : Nat) (e : Int) : Nat :=
  if 0 ≤ e then roundDiv num (den <<< e.toNat) else roundDiv (num <<< (-e).toNat) den

/-- the exponent that gives `num / den` a mantissa of 53 bits, or the least exponent -/
def ratioExponent (num den : Nat) : Int :=
  let guess : Int := (Nat.log2 num : Int) - Nat.log2 den - 52
  -- the guess is exact or one too high
  let exact := if 0 ≤ guess then den <<< (guess.toNat + 52) ≤ num else (den <<< 52) ≤ num <<< (-guess).toNat
  max minExponent (if exact then guess else guess - 1)

/-- the number nearest to `num / den` -/
def ofRatio (negative : Bool) (num den : Nat) : Real64 :=
  if num == 0 then .finite negative 0 minExponent
  else
    let e := ratioExponent num den
    let m := roundScaled num den e
    -- rounding up may have carried into a 54th bit
    let (m, e) := if m == 1 <<< 53 then (1 <<< 52, e + 1) else (m, e)
    if maxExponent < e then .infinite negative else .finite negative m e

/-- the `n`-th power of ten -/
def tenTo (n : Nat) : Nat :=
  Nat.pow 10 n

/-- the number nearest to `digits · 10 ^ exponent` -/
def ofDecimal (negative : Bool) (digits : Nat) (exponent : Int) : Real64 :=
  if digits == 0 then .finite negative 0 minExponent
  else
    let size : Int := (Nat.log2 digits : Int) / 3 + 2
    if 400 < exponent then .infinite negative
    else if exponent < -400 - size then .finite negative 0 minExponent
    else if 0 ≤ exponent then ofRatio negative (digits * tenTo exponent.toNat) 1
    else ofRatio negative digits (tenTo (-exponent).toNat)

/-- the number nearest to an integer -/
def ofInt (n : Int) : Real64 :=
  ofRatio (n < 0) n.natAbs 1

/-- numerator and denominator of a finite number's size -/
def ratio (mantissa : Nat) (exponent : Int) : Nat × Nat :=
  if 0 ≤ exponent then (mantissa <<< exponent.toNat, 1) else (mantissa, 1 <<< (-exponent).toNat)

def isNegative : Real64 → Bool
  | .nan => false
  | .infinite s => s
  | .finite s _ _ => s

/-- zero of either sign -/
def isZero : Real64 → Bool
  | .finite _ m _ => m == 0
  | _ => false

/-- the number is above zero -/
def isPositive : Real64 → Bool
  | .nan => false
  | .infinite s => !s
  | .finite s m _ => !s && m != 0

/-- the number is below zero -/
def isBelowZero : Real64 → Bool
  | .nan => false
  | .infinite s => s
  | .finite s m _ => s && m != 0

/-- the product, rounded once -/
def mul : Real64 → Real64 → Real64
  | .nan, _ => .nan
  | _, .nan => .nan
  | .infinite s, y => if y.isZero then .nan else .infinite (s != y.isNegative)
  | x, .infinite t => if x.isZero then .nan else .infinite (x.isNegative != t)
  | .finite s m e, .finite t n f =>
    let (a, b) := ratio m e
    let (c, d) := ratio n f
    ofRatio (s != t) (a * c) (b * d)

/-- the signed integer of a mantissa in units of a smaller power of two -/
def scaledInt (negative : Bool) (m : Nat) (e low : Int) : Int :=
  let n : Int := (m <<< (e - low).toNat : Nat)
  if negative then -n else n

/-- the sum, rounded; a sum of zero is negative only if both are -/
def add : Real64 → Real64 → Real64
  | .nan, _ | _, .nan => .nan
  | .infinite s, .infinite t => if s == t then .infinite s else .nan
  | .infinite s, _ | _, .infinite s => .infinite s
  | .finite s m e, .finite t n f =>
    let low := min e f
    let sum := scaledInt s m e low + scaledInt t n f low
    let (num, den) := ratio sum.natAbs low
    ofRatio (if sum == 0 then s && t else sum < 0) num den

/-- the quotient by a positive natural, rounded once -/
def divNat : Real64 → Nat → Real64
  | .finite s m e, k =>
    let (a, b) := ratio m e
    ofRatio s a (b * k)
  | x, _ => x

end Real64

end ClassNaming
