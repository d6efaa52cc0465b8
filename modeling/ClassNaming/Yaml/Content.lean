/-
The value of a settings text.

A mapping keeps the place of a key that comes again and takes its last value. A key `<<` brings in the entries of other
mappings, which come first and give way to the mapping's own.
-/
import ClassNaming.Yaml.Node

namespace ClassNaming.Yaml

namespace Node

/-- the scalar of a key; a sequence or mapping cannot be one -/
def keyScalar : Node → Except Stop Scalar
  | .scalar .defaultValue text => .ok (.text (String.ofList text))
  | .scalar tag text => scalarValue tag text
  | _ => .error .malformed

def isMerge : Node → Bool
  | .scalar .merge _ => true
  | _ => false

mutual

/-- the value of a node -/
def value : Node → Except Stop Value
  | .scalar tag text => (scalarValue tag text).map .scalar
  | .sequence tag items => if tag == .sequence then (values items).map .list else .error .malformed
  | .mapping tag entries =>
    if tag == .mapping then do
      let (merged, own) ← pairs entries
      return .map ((merged ++ own).foldl (fun es e => Entries.insert es e.1 e.2) [])
    else .error .malformed

def values : List Node → Except Stop (List Value)
  | [] => .ok []
  | item :: rest => do
    let v ← value item
    return v :: (← values rest)

/-- the entries brought in from other mappings, and a mapping's own -/
def pairs : List (Node × Node) → Except Stop (Entries × Entries)
  | [] => .ok ([], [])
  | (key, item) :: rest =>
    if key.isMerge then do
      let brought ← entriesOf item
      let (merged, own) ← pairs rest
      return (brought ++ merged, own)
    else do
      let k ← key.keyScalar
      let v ← value item
      let (merged, own) ← pairs rest
      return (merged, (k, v) :: own)

/-- the entries that a mapping brings in, or each mapping of a sequence, the last one first -/
def entriesOf : Node → Except Stop Entries
  | .mapping _ entries => do
    let (merged, own) ← pairs entries
    return merged ++ own
  | .sequence _ items => entriesOfEach items
  | .scalar _ _ => .error .malformed

def entriesOfEach : List Node → Except Stop Entries
  | [] => .ok []
  | .mapping _ entries :: rest => do
    let (merged, own) ← pairs entries
    return (← entriesOfEach rest) ++ (merged ++ own)
  | _ :: _ => .error .malformed

end

end Node

/-- the value that a text writes -/
def read (cs : List Char) : Except Stop Value := do
  (← Reader.document (← tokens cs)).value

end ClassNaming.Yaml
