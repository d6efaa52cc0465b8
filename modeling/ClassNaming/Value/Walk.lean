/-
Walking values whose shape is not known: the items of something iterable, the field of something indexable. An object of
another type is not walked.
-/
import ClassNaming.Fault
import ClassNaming.Value.Shown

namespace ClassNaming.Value

/-- the items of a list, the keys of a mapping, the characters of a text -/
def items : Value → Except Fault (List Value)
  | .list xs => .ok xs
  | .map entries => .ok (entries.map fun (k, _) => .scalar k)
  | .text s => .ok (s.toList.map fun c => .text (String.singleton c))
  | v => .error (.notIterable v.typeName)

/-- the entries of a mapping that is asked for `name` -/
def entriesFor (name : String) : Value → Except Fault Entries
  | .map entries => .ok entries
  | v => .error (.noAttribute v.typeName name)

/-- the entries of a mapping -/
def entries (v : Value) : Except Fault Entries :=
  v.entriesFor "get"

/-- the value itself, or the other one if it does not count as true -/
def orElse (v other : Value) : Value :=
  if v.isTruthy then v else other

/-- the field of a mapping that must be there -/
def index (key : String) : Value → Except Fault Value
  | .map entries =>
    match Entries.field? entries key with
    | some v => .ok v
    | none => .error (.noKey (Text.quoted key))
  | .text _ => .error .textIndex
  | .list _ => .error .listIndex
  | v => .error (.notSubscriptable v.typeName)

/-- the text, or a failure to join it as item `i` -/
def textAt (i : Nat) : Value → Except Fault String
  | .text s => .ok s
  | v => .error (.notText i v.typeName)

/-- the texts of a list, numbered from `i` -/
def textsFrom : Nat → List Value → Except Fault (List String)
  | _, [] => .ok []
  | i, v :: rest => do
    let s ← v.textAt i
    return s :: (← textsFrom (i + 1) rest)

/-- join a list of texts -/
def joinTexts (gap : String) (vs : List Value) : Except Fault String := do
  return gap.intercalate (← textsFrom 0 vs)

end ClassNaming.Value
