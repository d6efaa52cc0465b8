/-
Environment variables, and the width of the terminal that they state.
-/
import ClassNaming.Decimal.Reading

namespace ClassNaming

/-- the variables of a run, each name once -/
structure Environment where
  vars : List (String × String)
deriving Repr, Inhabited

namespace Environment

/-- the value of a variable that is set -/
def get? (env : Environment) (name : String) : Option String :=
  env.vars.lookup name

/-- the value of a variable, empty when it is not set -/
def get (env : Environment) (name : String) : String :=
  (env.get? name).getD ""

/-- the width of a terminal that states none -/
def defaultColumns : Int := 80

/-- the width of the terminal: a stated one counts when it is a positive number -/
def columns (env : Environment) : Int :=
  match readInt? (env.get "COLUMNS") with
  | some n => if 0 < n then n else defaultColumns
  | none => defaultColumns

end Environment

end ClassNaming
