/-
The tokens of a class string: its longest runs of characters that are not blank.
-/
import ClassNaming.Text.Blank

namespace ClassNaming.Extract

/-- put a character in front of the first piece -/
def consHead (c : Char) : List (List Char) → List (List Char)
  | [] => [[c]]
  | p :: rest => (c :: p) :: rest

/-- cut at every character satisfying `isGap`; the pieces may be empty -/
def pieces (isGap : Char → Bool) : List Char → List (List Char)
  | [] => [[]]
  | c :: rest => if isGap c then [] :: pieces isGap rest else consHead c (pieces isGap rest)

/-- the pieces between blanks that are not empty -/
def words (cs : List Char) : List (List Char) :=
  (pieces Text.isBlank cs).filter (!·.isEmpty)

/-- the tokens of a class string -/
def classString (s : String) : List String :=
  (words s.toList).map String.ofList

end ClassNaming.Extract
