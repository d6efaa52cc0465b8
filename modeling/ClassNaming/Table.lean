/-
Tables: lists of named things in the order they came, each found by its name with `List.lookup`.
-/

namespace ClassNaming.Table

variable {α : Type}

/-- set what stands under a name: in its place if the name is there, else last -/
def set (name : String) (value : α) : List (String × α) → List (String × α)
  | [] => [(name, value)]
  | (n, v) :: rest => if n == name then (n, value) :: rest else (n, v) :: set name value rest

end ClassNaming.Table
