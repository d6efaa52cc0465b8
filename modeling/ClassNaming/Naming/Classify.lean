/-
The kind of a token.

Rules are tried in the order of `precedence`, and the first that holds gives the kind. Utilities come before blocks,
because their shapes overlap. Under strict rules a utility has no kind, and it is not offered to the block rule.
-/
import ClassNaming.Naming.Rules

namespace ClassNaming

def isBlock (token : String) : Bool := blockGrammar.accepts token

def isElement (token : String) : Bool := elementGrammar.accepts token

def isNestedElement (token : String) : Bool := nestedElementGrammar.accepts token

def isModifier (token : String) : Bool := modifierGrammar.accepts token

def isState (token : String) : Bool := stateGrammar.accepts token

/-- a utility of the catalog, or one that an extra pattern matches -/
def isUtility (extra : List Pattern) (token : String) : Bool :=
  Library.builtin.isUtility extra token

/-- the rule of a kind holds for a token -/
def Kind.holds (rules : Rules) (token : String) : Kind → Bool
  | .block => isBlock token
  | .element => isElement token
  | .nestedElement => isNestedElement token
  | .modifier => isModifier token
  | .state => isState token
  | .utility => isUtility rules.compiled token

/-- the order in which rules are tried -/
def precedence : List Kind := [.state, .modifier, .nestedElement, .element, .utility, .block]

/-- the kinds whose rules hold, in order -/
def matchRules (rules : Rules) (token : String) : List Kind :=
  precedence.filter (Kind.holds rules token)

/-- the kind of the first rule of `order` that holds; a utility has none under strict rules -/
def classifyBy (order : List Kind) (rules : Rules) (token : String) : Option Kind :=
  match order.find? (Kind.holds rules token) with
  | some .utility => if rules.strictBem then none else some .utility
  | found => found

/-- the kind of a token -/
def classify (rules : Rules) (token : String) : Option Kind :=
  classifyBy precedence rules token

/-- the token is a block, element, nested element or modifier under the default rules -/
def isBemClass (token : String) : Bool :=
  ((classify .default token).map Kind.isBem).getD false

/-- a utility of the catalog, or of a list of sources read for this question -/
def isUtilityClass (token : String) (sources : Value) : Except Fault Bool := do
  let extra ← if sources.isTruthy then readUtilities 0 (← sources.items) else pure []
  return isUtility (extra.map (·.2)) token

end ClassNaming
