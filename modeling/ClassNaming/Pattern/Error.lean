/-
What can be wrong with a pattern source, and the wording of each fault.
-/
import ClassNaming.Decimal.Layout

namespace ClassNaming

/-- a fault of a pattern source -/
inductive PatternError where
  /-- a fault at a place of the source -/
  | located (reason : String) (position : Nat)
  /-- a fault of the pattern as a whole -/
  | whole (reason : String)
  /-- a repetition count beyond the largest one -/
  | hugeCount
  /-- the flags for ASCII and for all scripts together -/
  | flagConflict
deriving DecidableEq, Repr

/-- the wording of a fault in the source `cs`; the line and column are added when the source has several lines -/
def PatternError.message (cs : List Char) : PatternError → String
  | .located reason position =>
    let before := cs.take position
    let line := before.count '\n' + 1
    let column := (before.reverse.takeWhile (· != '\n')).length + 1
    let place := if cs.contains '\n' then " (line " ++ natText line ++ ", column " ++ natText column ++ ")" else ""
    reason ++ " at position " ++ natText position ++ place
  | .whole reason => reason
  | .hugeCount => "the repetition number is too large"
  | .flagConflict => "ASCII and UNICODE flags are incompatible"

end ClassNaming
