/-
What usually comes after a command.

A command has one usual next step and alternatives. The first alternative whose condition holds wins; the usual step is
shown when it has no condition or its condition holds.
-/
import ClassNaming.Value.Walk

namespace ClassNaming

/-- a next step: a command of the program or advice, with the flag that must hold for it and the reason to take it -/
structure NextStep where
  isCommand : Bool
  label : String
  condition : Option String
  why : Option String
deriving DecidableEq, Repr

/-- the line a step is shown as -/
def NextStep.line (s : NextStep) : String :=
  (if s.isCommand then "-> Next: " else "-> ") ++ s.label ++ (match s.why with
    | some why => "  (" ++ why ++ ")"
    | none => "")

/-- the steps after a command -/
structure Succession where
  usual : NextStep
  alternatives : List NextStep
deriving DecidableEq, Repr

def allValidStep : NextStep := ⟨false, "All classes are valid", some "passed", none⟩

/-- the steps after each command that has any -/
def successions : List (String × Succession) := [
  ("init", ⟨⟨false, "biome check ./src", none, some "HCNC validates class names in JSX/TSX and CSS/SCSS files"⟩, []⟩),
  ("validate", ⟨allValidStep, [⟨true, "hcnc help", some "has_invalid", some "See the naming rules"⟩]⟩),
  ("check", ⟨allValidStep, [
    ⟨true, "hcnc config", some "has_unreadable", some "Exclude directories with unreadable files"⟩,
    ⟨true, "hcnc validate <class>", some "has_invalid", some "Explain a single class"⟩]⟩)]

/-- a flag of the context; one without any entry has every flag off -/
def contextFlag (context : Value) (name : String) : Except Fault Bool :=
  if context.isTruthy then do
    let flags ← context.entries
    return (Entries.fieldOrNull flags name).isTruthy
  else .ok false

/-- the condition of a step holds; `none` holds if `free` -/
def NextStep.applies (context : Value) (free : Bool) (s : NextStep) : Except Fault Bool :=
  match s.condition with
  | some name => contextFlag context name
  | none => .ok free

/-- the first step that applies -/
def firstStep (context : Value) : List NextStep → Except Fault (Option NextStep)
  | [] => .ok none
  | s :: rest => do
    if ← s.applies context false then return some s else firstStep context rest

/-- the hint after a command, in the context of how it ended -/
def hint? (command : String) (context : Value) : Except Fault (Option String) := do
  match successions.lookup command with
  | none => return none
  | some rules =>
    match ← firstStep context rules.alternatives with
    | some s => return some s.line
    | none => if ← rules.usual.applies context true then return some rules.usual.line else return none

end ClassNaming
