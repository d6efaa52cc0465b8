/-
The usage line and the help text of a command, laid out for a width.

Names stand in a column that is as wide as the longest of them needs, up to a limit; the lines about them are filled to
the right of it. A name that is too long for the column has its text start on the next line.
-/
import ClassNaming.Cli.Command
import ClassNaming.Text.Wrap

namespace ClassNaming.Cli

def spaces (n : Nat) : String :=
  String.ofList (List.replicate n ' ')

/-- the parts of a usage line for the switches -/
def Command.switchParts (c : Command) : List String :=
  c.switches.map fun s =>
    let name := s.names.head?.getD ""
    match s.valueWord? with
    | some word => "[" ++ name ++ " " ++ word ++ "]"
    | none => "[" ++ name ++ "]"

/-- the parts of a usage line for the operand -/
def Operand.parts : Operand → List String
  | .none => []
  | .one name _ => [name]
  | .any name _ => ["[" ++ name ++ " ...]"]
  | .command _ _ table => [braced (table.map (·.1)), "..."]

/-- parts in lines, `line` being the current one and `used` its width so far -/
def partLines (width margin : Nat) (line : List String) (used : Nat) : List String → List (List String)
  | [] => if line.isEmpty then [] else [line]
  | part :: rest =>
    if width < used + 1 + part.length && !line.isEmpty then
      line :: partLines width margin [part] (margin + part.length) rest
    else partLines width margin (line ++ [part]) (used + 1 + part.length) rest

/-- lines that all start at a margin -/
def atMargin (margin : Nat) (lines : List (List String)) : List String :=
  lines.map fun line => spaces margin ++ " ".intercalate line

/-- the first line goes on where the text before it ends, the others start at a margin -/
def goingOn (margin : Nat) (lines : List (List String)) : List String :=
  match lines with
  | [] => []
  | line :: rest => " ".intercalate line :: atMargin margin rest

def usageWord : String := "usage: "

/-- the usage of a command, over several lines if it is wider than `width` -/
def Command.usage (c : Command) (width : Int) : String :=
  let switches := c.switchParts
  let operands := c.operand.parts
  let line := " ".intercalate (c.title :: switches ++ operands)
  if ((usageWord.length + line.length : Nat) : Int) ≤ width then usageWord ++ line
  else
    let room := width.toNat
    let start := usageWord.length + c.title.length
    let lines :=
      if ((4 * start : Nat) : Int) ≤ 3 * width then
        let margin := start + 1
        if switches.isEmpty then
          goingOn margin (partLines room margin [c.title] start operands)
        else
          goingOn margin (partLines room margin [c.title] start switches)
            ++ atMargin margin (partLines room margin [] (margin - 1) operands)
      else
        let margin := usageWord.length
        let together := partLines room margin [] (margin - 1) (switches ++ operands)
        c.title :: atMargin margin (
          if together.length ≤ 1 then together
          else partLines room margin [] (margin - 1) switches ++ partLines room margin [] (margin - 1) operands)
    usageWord ++ "\n".intercalate lines

/-- a row of a help text: how deep it stands, what it is about, and the text -/
structure Row where
  depth : Nat
  name : String
  about : String

/-- the rows of the operand -/
def Operand.rows : Operand → List Row
  | .none => []
  | .one name about | .any name about => [⟨2, name, about⟩]
  | .command _ about table =>
    ⟨2, braced (table.map (·.1)), about⟩ :: table.map fun entry => ⟨4, entry.1, entry.2⟩

/-- the row of a switch: all its names -/
def Switch.row (s : Switch) : Row :=
  let names := match s.valueWord? with
    | some word => s.names.map (· ++ " " ++ word)
    | none => s.names
  ⟨2, ", ".intercalate names, s.about⟩

/-- the column in which texts start -/
def textColumn (width : Int) (rows : List Row) : Nat :=
  let limit := min 24 (max (width - 20) 4).toNat
  min ((rows.map fun r => r.name.length + 4).foldl max 0) limit

/-- the narrowest room for text -/
def narrowest : Int := 11

/-- the lines of a row, with texts in a column -/
def Row.lines (r : Row) (width : Int) (column : Nat) : List String :=
  let texts := Text.fill (max (width - column) narrowest).toNat r.about
  let shown := texts.map (spaces column ++ ·)
  let head := spaces r.depth ++ r.name
  if head.length + 2 ≤ column then
    match texts with
    | [] => [head]
    | first :: _ => (head ++ spaces (column - head.length) ++ first) :: shown.tail
  else head :: shown

/-- rows under a heading, if there are any -/
def headed (heading : String) (rows : List Row) (width : Int) (column : Nat) : List String :=
  if rows.isEmpty then []
  else ["\n".intercalate (heading :: rows.flatMap fun r => r.lines width column)]

/-- a text that is filled to the width, if there is one -/
def filled (width : Int) (text : String) : List String :=
  if text.isEmpty then [] else ["\n".intercalate (Text.fill (max width narrowest).toNat text)]

/-- the help text of a command -/
def Command.help (c : Command) (width : Int) : String :=
  let operands := c.operand.rows
  let switches := c.switches.map Switch.row
  let column := textColumn width (operands ++ switches)
  "\n\n".intercalate ([c.usage width] ++ filled width c.about
    ++ headed "positional arguments:" operands width column
    ++ headed "options:" switches width column ++ filled width c.closing) ++ "\n"

/-- what is written when a command refuses its arguments -/
def Command.refusal (c : Command) (width : Int) (message : String) : String :=
  c.usage width ++ "\n" ++ c.title ++ ": error: " ++ message ++ "\n"

end ClassNaming.Cli
