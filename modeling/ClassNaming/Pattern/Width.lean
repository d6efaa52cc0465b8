/-
How many characters a pattern takes. A look behind needs a body that always takes the same number.
-/
import ClassNaming.Pattern.Basic

namespace ClassNaming.Pattern

/-- least and greatest number of characters a pattern takes -/
abbrev Width := Nat × Nat

/-- the width that stands for no bound -/
def maxWidth : Nat := 0x10000000000000000

/-- sum of widths, bounded -/
def addWidth (a b : Width) : Width :=
  (min (a.1 + b.1) maxWidth, min (a.2 + b.2) maxWidth)

/-- the width of either of two patterns -/
def eitherWidth (a b : Width) : Width :=
  (min a.1 b.1, max a.2 b.2)

/-- the least and greatest number of characters a pattern takes, given those of the groups -/
def width (groups : List (Nat × Width)) : Pattern → Width
  | .empty => (0, 0)
  | .char _ => (1, 1)
  | .seq p q => addWidth (width groups p) (width groups q)
  | .alt p q => eitherWidth (width groups p) (width groups q)
  | .group _ p => width groups p
  | .rep p least most _ =>
    let (lo, hi) := width groups p
    let top := match most with
      | some m => hi * m
      | none => if hi == 0 then 0 else maxWidth
    (min (lo * least) maxWidth, min top maxWidth)
  | .anchor _ => (0, 0)
  | .ahead _ _ => (0, 0)
  | .behind _ _ _ => (0, 0)
  | .again number _ _ => ((groups.find? (·.1 == number)).map (·.2)).getD (0, 0)
  | .ifGroup _ p q => eitherWidth (width groups p) (width groups q)
  | .atomic p => width groups p

/-- the first repetition of a pattern, from the outside -/
def outerGreed? : Pattern → Option Greed
  | .seq p q | .alt p q | .ifGroup _ p q => (outerGreed? p).or (outerGreed? q)
  | .group _ p | .ahead _ p | .behind _ _ p | .atomic p => outerGreed? p
  | .rep _ _ _ greed => some greed
  | .empty | .char _ | .anchor _ | .again _ _ _ => none

end ClassNaming.Pattern
