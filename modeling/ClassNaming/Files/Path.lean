/-
Paths as they are written and shown: names with slashes between them.

Reading a path drops empty names and single dots and keeps double dots, so `./src//a/` is `src/a` and `src/../src`
stays. A path without names is shown as a dot.
-/
import ClassNaming.Text.Split

namespace ClassNaming

/-- a path; the anchor is empty, or the one or two slashes of an absolute path -/
structure Path where
  anchor : String
  parts : List String
deriving DecidableEq, Repr, Inhabited

namespace Path

/-- the directory of the run -/
def here : Path := ⟨"", []⟩

/-- the leading slashes that count: two only if there is no third -/
def anchorOf : List Char → String
  | '/' :: '/' :: '/' :: _ => "/"
  | '/' :: '/' :: _ => "//"
  | '/' :: _ => "/"
  | _ => ""

/-- the path a text writes -/
def ofText (s : String) : Path :=
  ⟨anchorOf s.toList, (Text.splitText '/' s).filter fun part => part != "" && part != "."⟩

/-- the text of a path -/
def text (p : Path) : String :=
  if p.anchor.isEmpty && p.parts.isEmpty then "." else p.anchor ++ "/".intercalate p.parts

/-- the path with names added at its end -/
def append (p : Path) (names : List String) : Path :=
  { p with parts := p.parts ++ names }

/-- the path of a text that is read from this one; an absolute text stands alone -/
def join (p : Path) (s : String) : Path :=
  let q := ofText s
  if q.anchor.isEmpty then p.append q.parts else q

/-- the path without its last name -/
def parent (p : Path) : Path :=
  { p with parts := p.parts.dropLast }

/-- the last name, empty when there is none -/
def name (p : Path) : String :=
  p.parts.getLast?.getD ""

/-- the suffix of a name: its last dot and what follows, unless the dot is the first or the last character -/
def suffixOf (name : List Char) : List Char :=
  let ending := (name.reverse.takeWhile (· != '.')).reverse
  if ending.isEmpty || name.length ≤ ending.length + 1 then [] else '.' :: ending

/-- the suffix of a path -/
def suffix (p : Path) : String :=
  String.ofList (suffixOf p.name.toList)

end Path

end ClassNaming
