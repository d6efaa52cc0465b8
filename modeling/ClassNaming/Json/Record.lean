/-
Log records in JSON, each on one line.

A record has names that are texts and integers of 64 bits; a path and an object of another type have no form in it.
-/
import ClassNaming.Json.Writer
import ClassNaming.Tasks.Result

namespace ClassNaming.Json

/-- a record has a form for the scalar -/
def holdsScalar : Scalar → Bool
  | .int n => -0x8000000000000000 ≤ n && n < 0x10000000000000000
  | .path _ | .foreign _ => false
  | _ => true

/-- the key can be the name of a member -/
def isName : Scalar → Bool
  | .text _ => true
  | _ => false

mutual

/-- a record has a form for the value -/
def holds : Value → Bool
  | .scalar s => holdsScalar s
  | .list items => holdsItems items
  | .map entries => holdsEntries entries
  | .record _ _ entries => holdsEntries entries

def holdsItems : List Value → Bool
  | [] => true
  | v :: rest => holds v && holdsItems rest

def holdsEntries : List (Scalar × Value) → Bool
  | [] => true
  | (k, v) :: rest => isName k && holds v && holdsEntries rest

end

instance recordWriter : RecordWriter where
  holds := holds
  line := dense

end ClassNaming.Json
