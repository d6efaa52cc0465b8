/-
Framed reports: a heading between rules, titled sections, and a closing summary.
-/
import ClassNaming.Environment
import ClassNaming.Report.Hint

namespace ClassNaming

/-- a framed report; an empty text stands for a part that is not shown -/
structure Template where
  width : Int
  title : String
  subtitle : String
  scope : String
  sections : List (String × String)
  summary : String
deriving Repr

namespace Template

/-- the widest frame a terminal is filled with -/
def maxWidth : Int := 100

/-- an empty report of a stated width, or of the terminal's -/
def blank (env : Environment) (width : Option Int) : Template :=
  ⟨width.getD (min env.columns maxWidth), "", "", "", [], ""⟩

def header (t : Template) (title subtitle : String) : Template :=
  { t with title, subtitle }

def addSection (t : Template) (title content : String) : Template :=
  { t with sections := t.sections ++ [(title, content)] }

def footer (t : Template) (summary : String) : Template :=
  { t with summary }

/-- a rule of one character; a width below one gives none -/
def rule (c : Char) (width : Int) : String :=
  String.ofList (List.replicate width.toNat c)

/-- a line that is only there when it has text -/
def optional (s : String) : List String :=
  if s.isEmpty then [] else [s]

def headerLines (t : Template) : List String :=
  if t.title.isEmpty then []
  else
    let heading := if t.subtitle.isEmpty then t.title else t.title ++ " - " ++ t.subtitle
    [rule '=' t.width, heading, rule '=' t.width] ++ optional t.scope ++ [""]

def sectionLines (t : Template) (title content : String) : List String :=
  (if title.isEmpty then [] else [title, rule '-' (min title.length t.width)]) ++ optional content ++ [""]

/-- the text of the report, with the hint after a command that has one -/
def render (t : Template) (command : String) (context : Value) : Except Fault String := do
  let hint ← if command.isEmpty then pure none else hint? command context
  let summary := if t.summary.isEmpty then [] else ["Summary: " ++ t.summary]
  let footer := [rule '-' t.width] ++ summary ++ hint.toList ++ [rule '=' t.width]
  return "\n".intercalate
    (t.headerLines ++ t.sections.flatMap (fun s => t.sectionLines s.1 s.2) ++ footer)

end Template

end ClassNaming
