/-
What a command line may say: switches by name, and operands by place.

A switch has one or more names, the first of which stands for it in the usage line. A command takes no operand, one, any
number of them, or the name of another command with all that follows it.
-/

namespace ClassNaming.Cli

/-- what a switch does -/
inductive Effect where
  | help
  | version
  | flag
  /-- takes a value, which must be one of the choices unless there are none -/
  | value (word : String) (choices : List String)
deriving DecidableEq, Repr

/-- a switch, the key its value is found under, and a line about it -/
structure Switch where
  key : String
  names : List String
  effect : Effect
  about : String
deriving DecidableEq, Repr

/-- a set of words in braces -/
def braced (words : List String) : String :=
  "\x7b" ++ ",".intercalate words ++ "\x7d"

namespace Switch

/-- the word for the value of a switch that takes one -/
def valueWord? (s : Switch) : Option String :=
  match s.effect with
  | .value word choices => some (if choices.isEmpty then word else braced choices)
  | _ => none

/-- a switch without a value -/
def toggle (key : String) (names : List String) (about : String) : Switch :=
  ⟨key, names, .flag, about⟩

/-- the switch that asks for help -/
def help : Switch :=
  ⟨"help", ["-h", "--help"], .help, "show this help message and exit"⟩

/-- the name of the switch in messages -/
def title (s : Switch) : String :=
  "/".intercalate s.names

end Switch

/-- what a command takes besides switches -/
inductive Operand where
  | none
  | one (name about : String)
  | any (name about : String)
  | command (name about : String) (table : List (String × String))
deriving DecidableEq, Repr

/-- a command with its texts; an empty text is not shown -/
structure Command where
  title : String
  about : String := ""
  switches : List Switch
  operand : Operand := .none
  closing : String := ""
deriving DecidableEq, Repr

namespace Command

/-- the names of all switches, each with its switch -/
def names (c : Command) : List (String × Switch) :=
  c.switches.flatMap fun s => s.names.map fun n => (n, s)

/-- the switch of a name -/
def switch? (c : Command) (name : String) : Option Switch :=
  c.names.lookup name

end Command

end ClassNaming.Cli
