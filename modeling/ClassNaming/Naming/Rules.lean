/-
The rules in force: extra utility sources, and two flags.

`Rules.utilities` are sources that can all be read; `Rules.compiled` are their patterns. `Rules.ofFields` builds rules
from a mapping, `Rules.changed` from earlier rules and a mapping of changes.
-/
import ClassNaming.Naming.Grammar
import ClassNaming.Value.Walk

namespace ClassNaming

/-- the pattern of the extra utility source at `index` -/
def readUtility (index : Nat) (source : Value) : Except Fault (String × Pattern) :=
  match source with
  | .text s =>
    if s.isEmpty then .error (.badUtility index s "pattern is empty")
    else match Pattern.read s with
      | .ok p => .ok (s, p)
      | .error e =>
        match e.fault s with
        | .badPattern reason => .error (.badUtility index s reason)
        | fault => .error fault
  | v => .error (.badUtility index v.quoted "pattern must be a string")

/-- the patterns of extra utility sources, numbered from `index` -/
def readUtilities : Nat → List Value → Except Fault (List (String × Pattern))
  | _, [] => .ok []
  | index, v :: rest => do
    let first ← readUtility index v
    return first :: (← readUtilities (index + 1) rest)

/-- a truth value written as one or as text -/
def parseBool? : Value → Option Bool
  | .bool b => some b
  | .text s =>
    -- no other letter has a lower-case form among the letters of these words
    let word := String.ofList (lowerAscii (Text.trim s.toList))
    if ["true", "1", "yes", "on"].contains word then some true
    else if ["false", "0", "no", "off"].contains word then some false
    else none
  | _ => none

/-- naming rules -/
structure Rules where
  /-- extra utilities: source and pattern -/
  extra : List (String × Pattern)
  /-- unknown names pass with a note -/
  allowUnknown : Bool
  /-- utilities are refused -/
  strictBem : Bool

namespace Rules

/-- no extra utilities, both flags off -/
def default : Rules := ⟨[], false, false⟩

/-- the sources of the extra utilities -/
def utilities (r : Rules) : List String := r.extra.map (·.1)

/-- the patterns of the extra utilities -/
def compiled (r : Rules) : List Pattern := r.extra.map (·.2)

/-- rules from the parts of a call: one text is not a list of sources -/
def ofParts (utilities : Value) (allowUnknown strictBem : Bool) : Except Fault Rules := do
  match utilities with
  | .text _ => throw .singleUtility
  | v => return ⟨← readUtilities 0 (← v.items), allowUnknown, strictBem⟩

/-- a flag of a mapping, off when it is not there -/
def flag (entries : Entries) (key : String) : Except Fault Bool :=
  let v := (Entries.field? entries key).getD (.bool false)
  match parseBool? v with
  | some b => .ok b
  | none => .error (.badFlag key v.quoted)

/-- rules from a mapping; one text counts as a list of one source -/
def ofFields (data : Value) : Except Fault Rules := do
  let entries ← (data.orElse (.map [])).entries
  let sources ← match (Entries.fieldOrNull entries "custom_utilities").orElse (.list []) with
    | .text s => pure [.text s]
    | v => v.items
  let allowUnknown ← flag entries "allow_unknown"
  let strictBem ← flag entries "strict_bem"
  return ⟨← readUtilities 0 sources, allowUnknown, strictBem⟩

/-- the rules as a mapping -/
def fields (r : Rules) : Entries :=
  [(.text "custom_utilities", .texts r.utilities), (.text "allow_unknown", .bool r.allowUnknown),
    (.text "strict_bem", .bool r.strictBem)]

/-- set each entry of `changes` in turn -/
def update (entries changes : Entries) : Entries :=
  changes.foldl (fun done (k, v) => Entries.insert done k v) entries

/-- earlier rules with some fields changed -/
def changed (r : Rules) (changes : Entries) : Except Fault Rules :=
  ofFields (.map (update r.fields changes))

end Rules

end ClassNaming
