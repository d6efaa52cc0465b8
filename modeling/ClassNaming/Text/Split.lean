/-
Cutting a text at a character.

`split` keeps empty parts, so a text with n gaps has n + 1 parts. `listed` is the reading of a list setting: the parts
between commas without the blanks around them, and no empty ones.
-/
import ClassNaming.Text.Blank

namespace ClassNaming.Text

/-- the parts of a text between gaps -/
def split (gap : Char) : List Char → List (List Char)
  | [] => [[]]
  | c :: cs =>
    if c == gap then [] :: split gap cs
    else match split gap cs with
      | [] => [[c]]
      | part :: parts => (c :: part) :: parts

/-- `split` on a text -/
def splitText (gap : Char) (s : String) : List String :=
  (split gap s.toList).map String.ofList

/-- the trimmed parts between commas that are not empty -/
def listed (s : String) : List String :=
  (((split ',' s.toList).map trim).filter fun part => !part.isEmpty).map String.ofList

end ClassNaming.Text
