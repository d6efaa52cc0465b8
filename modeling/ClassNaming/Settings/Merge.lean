/-
Laying one mapping over another.

A key of the upper mapping wins, except that two mappings under one key are laid over each other in turn. Keys keep
the place they have in the lower mapping; new ones go last.
-/
import ClassNaming.Value.Basic

namespace ClassNaming

mutual

/-- the lower mapping with the upper one laid over it -/
def Entries.over : Entries → List (Scalar × Value) → Entries
  | lower, [] => lower
  | lower, (key, value) :: rest =>
    Entries.over (Entries.insert lower key (Value.over (Entries.lookup? lower key) value)) rest

/-- what stands under a key where `lower?` stood before -/
def Value.over : Option Value → Value → Value
  | some (.map lower), .map upper => .map (Entries.over lower upper)
  | _, upper => upper

end

end ClassNaming
