/-
Directories that a scan does not enter: hidden ones, those of dependencies, and any a project adds by name.
-/
import ClassNaming.Extract.Markup

namespace ClassNaming

/-- the names of directories to skip besides hidden ones -/
structure Exclusion where
  names : List String
deriving DecidableEq, Repr, Inhabited

namespace Exclusion

/-- the names skipped in every project -/
def always : List String := ["node_modules"]

/-- the exclusion with further names -/
def adding (extra : List String) : Exclusion :=
  ⟨Extract.unique (always ++ extra)⟩

/-- a directory of this name is not entered -/
def skips (e : Exclusion) (name : String) : Bool :=
  name.toList.head? == some '.' || e.names.contains name

/-- the names, sorted -/
def sorted (e : Exclusion) : List String :=
  e.names.mergeSort fun a b => decide (a ≤ b)

end Exclusion

end ClassNaming
