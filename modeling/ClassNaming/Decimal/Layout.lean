/-
How numbers are written.

`Real64.text` writes the shortest digits that read back, positionally when the decimal point falls within sixteen digits
and not below the fourth zero, else with an exponent of at least two digits; a positional number keeps a `.0`.
`Real64.general` writes at most six significant digits without final zeros. `Real64.roundPlaces` rounds to a number of
decimal places, a tie of the exact binary value going to the even digit.
-/
import ClassNaming.Decimal.Shortest

namespace ClassNaming

/-- the decimal digits of a natural -/
def digitText (n : Nat) : List Char :=
  Nat.toDigits 10 n

/-- the decimal text of an integer -/
def intText (n : Int) : String :=
  String.ofList ((if n < 0 then ['-'] else []) ++ digitText n.natAbs)

/-- the decimal text of a natural -/
def natText (n : Nat) : String :=
  String.ofList (digitText n)

namespace Real64

/-- which decimal exponents are written positionally, whether a whole number keeps its fraction, and whether an
exponent has a sign and two digits at least -/
structure Layout where
  least : Int
  greatest : Int
  keepFraction : Bool
  wideExponent : Bool

/-- the layout of data: positional from 1e-4 up to sixteen digits, `.0` kept -/
def Layout.data : Layout := ⟨-4, 15, true, true⟩

/-- the layout of messages: positional from 1e-4 up to six digits, no `.0` -/
def Layout.short : Layout := ⟨-4, 5, false, true⟩

/-- the layout of log records: positional from 1e-5 up to sixteen digits, `.0` kept, exponents as integers -/
def Layout.dense : Layout := ⟨-5, 15, true, false⟩

/-- the sign and at least two digits of an exponent -/
def exponentText (e : Int) : List Char :=
  let digits := digitText e.natAbs
  (if e < 0 then '-' else '+') :: (if digits.length < 2 then '0' :: digits else digits)

/-- write the digits `ds`, whose first stands for `10 ^ top` -/
def layDigits (layout : Layout) (ds : List Char) (top : Int) : List Char :=
  if layout.least ≤ top && top ≤ layout.greatest then
    if top < 0 then '0' :: '.' :: List.replicate (-top - 1).toNat '0' ++ ds
    else
      let whole := top.toNat + 1
      let front := ds.take whole ++ List.replicate (whole - ds.length) '0'
      let back := ds.drop whole
      if back.isEmpty then front ++ (if layout.keepFraction then ['.', '0'] else []) else front ++ '.' :: back
  else
    let mantissa := match ds with
      | [] => ['0']
      | [d] => [d]
      | d :: more => d :: '.' :: more
    mantissa ++ 'e' :: (if layout.wideExponent then exponentText top else (intText top).toList)

/-- write a signed number from its decimal digits -/
def lay (layout : Layout) (negative : Bool) (digits : Nat) (exponent : Int) : String :=
  let ds := digitText digits
  let top := if digits == 0 then 0 else exponent + ds.length - 1
  String.ofList ((if negative then ['-'] else []) ++ layDigits layout ds top)

/-- the text of a number in data and messages about values -/
def text : Real64 → String
  | .nan => "nan"
  | .infinite s => if s then "-inf" else "inf"
  | .finite s m e =>
    let (d, k) := if m == 0 then (0, 0) else shortest m e
    lay .data s d k

/-- `num / den` rounded to six significant digits, as digits and exponent -/
def sixDigits (num den : Nat) : Nat × Int :=
  let top := decimalExponent num den
  let (a, b) := shiftDecimal num den (6 - top)
  dropZeros 20 (roundDiv a b) (top - 6)

/-- the text of a number with six significant digits at most -/
def general : Real64 → String
  | .nan => "nan"
  | .infinite s => if s then "-inf" else "inf"
  | .finite s m e =>
    let (num, den) := ratio m e
    let (d, k) := if m == 0 then (0, 0) else sixDigits num den
    lay .short s d k

/-- the number nearest to the value rounded to `places` decimal places -/
def roundPlaces (places : Nat) : Real64 → Real64
  | .finite s m e =>
    let (num, den) := ratio m e
    ofDecimal s (roundDiv (num * tenTo places) den) (-(places : Int))
  | x => x

end Real64

end ClassNaming
