/-
The kinds of class name.
-/

namespace ClassNaming

/-- the closed set of class-name kinds -/
inductive Kind where
  | block
  | element
  | nestedElement
  | modifier
  | state
  | utility
deriving DecidableEq, Repr, Inhabited

namespace Kind

/-- every kind, in the order they are listed in reports -/
def all : List Kind := [.block, .element, .nestedElement, .modifier, .state, .utility]

/-- the word a kind goes by in reports and settings -/
def word : Kind → String
  | .block => "block"
  | .element => "element"
  | .nestedElement => "nested-element"
  | .modifier => "modifier"
  | .state => "state"
  | .utility => "utility"

/-- the kind with a given word -/
def ofWord? (s : String) : Option Kind :=
  all.find? (·.word == s)

/-- the kind as an error message quotes it -/
def quoted (k : Kind) : String :=
  let name := match k with
    | .block => "BLOCK"
    | .element => "ELEMENT"
    | .nestedElement => "NESTED_ELEMENT"
    | .modifier => "MODIFIER"
    | .state => "STATE"
    | .utility => "UTILITY"
  "<ClassKind." ++ name ++ ": '" ++ k.word ++ "'>"

/-- the four kinds of the block-element-modifier family -/
def isBem : Kind → Bool
  | .block | .element | .nestedElement | .modifier => true
  | .state | .utility => false

end Kind

end ClassNaming
