/-
Numbers written as text in settings.

`readInt?` takes a signed run of decimal digits of any script, single underscores allowed between digits, blanks around.
`readReal?` takes a decimal fraction with an optional exponent, or a signed `inf`, `infinity` or `nan` in any letter
case, under the same rules for digits, underscores and blanks.
-/
import ClassNaming.Decimal.Real64
import ClassNaming.Text.Blank
import ClassNaming.Text.Letter

namespace ClassNaming

/-- the value of an ASCII digit -/
def asciiDigit? (c : Char) : Option Nat :=
  if '0' ≤ c && c ≤ '9' then some (c.toNat - '0'.toNat) else none

def isAsciiDigit (c : Char) : Bool :=
  '0' ≤ c && c ≤ '9'

/-- the natural written by a run of ASCII digits -/
def natOfDigits (cs : List Char) : Nat :=
  cs.foldl (fun n c => 10 * n + (c.toNat - '0'.toNat)) 0

/-- the longest run of ASCII digits at the front, and what follows it -/
def spanDigits (cs : List Char) : List Char × List Char :=
  (cs.takeWhile isAsciiDigit, cs.dropWhile isAsciiDigit)

/-- every decimal digit replaced by its ASCII form -/
def asciiDigits (cs : List Char) : List Char :=
  cs.map fun c => match Text.decimalDigit? c with
    | some d => Nat.digitChar d
    | none => c

/-- drop underscores that stand between digits; `none` if another one is left -/
def dropUnderscores? : Char → List Char → Option (List Char)
  | _, [] => some []
  | last, '_' :: c :: rest =>
    if isAsciiDigit last && isAsciiDigit c then (dropUnderscores? c rest).map (c :: ·) else none
  | _, c :: rest =>
    if c == '_' then none
    else (dropUnderscores? (if isAsciiDigit c then c else ' ') rest).map (c :: ·)

/-- split off a sign; true is minus -/
def splitSign : List Char → Bool × List Char
  | '-' :: rest => (true, rest)
  | '+' :: rest => (false, rest)
  | cs => (false, cs)

/-- the most digits an integer text may have -/
def maxIntDigits : Nat := 4300

/-- a blank that may stand around a number: the information separators may not -/
def isNumberBlank (c : Char) : Bool :=
  Text.isBlank c && !(28 ≤ c.toNat && c.toNat ≤ 31)

/-- the characters of a number, without the blanks around it, digits in their ASCII form -/
def numberChars (s : String) : List Char :=
  asciiDigits (Text.dropEndWhile isNumberBlank (s.toList.dropWhile isNumberBlank))

/-- an integer written as text -/
def readInt? (s : String) : Option Int := do
  let (negative, rest) := splitSign (numberChars s)
  let digits ← dropUnderscores? ' ' rest
  if digits.isEmpty || !digits.all isAsciiDigit || maxIntDigits < digits.length then none
  else
    let n := natOfDigits digits
    some (if negative then -n else n)

/-- an exponent part: nothing, or a mark and a signed run of digits -/
def readExponent? : List Char → Option Int
  | [] => some 0
  | mark :: rest =>
    if mark == 'e' || mark == 'E' then
      let (negative, digits) := splitSign rest
      if digits.isEmpty || !digits.all isAsciiDigit then none
      else some (if negative then -(natOfDigits digits : Int) else natOfDigits digits)
    else none

/-- a decimal fraction with an optional exponent, unsigned -/
def readFraction? (negative : Bool) (cs : List Char) : Option Real64 := do
  let (whole, rest) := spanDigits cs
  let (part, rest) := match rest with
    | '.' :: more => spanDigits more
    | _ => ([], rest)
  if whole.isEmpty && part.isEmpty then none
  else
    let e ← readExponent? rest
    some (Real64.ofDecimal negative (natOfDigits (whole ++ part)) (e - part.length))

/-- lower-case ASCII letters -/
def lowerAscii (s : List Char) : List Char :=
  s.map Char.toLower

/-- a floating point number written as text -/
def readReal? (s : String) : Option Real64 := do
  let cs ← dropUnderscores? ' ' (numberChars s)
  let (negative, rest) := splitSign cs
  let word := lowerAscii rest
  if word == "inf".toList || word == "infinity".toList then some (.infinite negative)
  else if word == "nan".toList then some .nan
  else readFraction? negative rest

end ClassNaming
