/-
The class names in a selector or a stylesheet: every name that follows a dot.
-/

namespace ClassNaming.Extract

/-- a character a class name may start with -/
def isNameStart (c : Char) : Bool :=
  ('a' ≤ c && c ≤ 'z') || ('A' ≤ c && c ≤ 'Z') || c == '_'

/-- a character a class name may go on with -/
def isNamePart (c : Char) : Bool :=
  isNameStart c || ('0' ≤ c && c ≤ '9') || c == '-'

/-- the names after dots, from the left; the search goes on behind each name -/
def dottedNames : List Char → List (List Char)
  | [] => []
  | c :: rest =>
    match rest with
    | [] => []
    | d :: more =>
      if c == '.' && isNameStart d then (d :: more.takeWhile isNamePart) :: dottedNames (more.dropWhile isNamePart)
      else dottedNames (d :: more)
termination_by cs => cs.length
decreasing_by
  · have := (List.dropWhile_sublist (l := more) isNamePart).length_le
    simp only [List.length_cons]
    omega
  · simp

/-- the class names of a selector -/
def selector (s : String) : List String :=
  (dottedNames s.toList).map String.ofList

/-- the class names of a stylesheet -/
def stylesheet (s : String) : List String :=
  selector s

end ClassNaming.Extract
