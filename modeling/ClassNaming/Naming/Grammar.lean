/-
Grammars: a pattern source with the kind of name it recognises. Every grammar is for whole tokens.

The five grammars of blocks, elements, nested elements, modifiers and states are built from one source for a segment,
lower-case groups of letters and digits joined by single hyphens. A `Library` holds at most one grammar for each of
these kinds and any number for utilities.
-/
import ClassNaming.Fault
import ClassNaming.Naming.Catalog
import ClassNaming.Pattern.Matcher
import ClassNaming.Pattern.Reader

namespace ClassNaming

/-- the cause of failure that a pattern error is -/
def PatternError.fault (source : String) : PatternError → Fault
  | .hugeCount => .hugeCount
  | .flagConflict => .flagConflict
  | e => .badPattern (e.message source.toList)

/-- the pattern that matches no text -/
def Pattern.never : Pattern :=
  .char ⟨false, [], false, false⟩

/-- a source with its pattern, its name and the kind it recognises -/
structure Grammar where
  name : String
  kind : Kind
  source : String
  pattern : Pattern

namespace Grammar

/-- the whole token is in the grammar's language -/
def accepts (g : Grammar) (token : String) : Bool :=
  g.pattern.fullMatches token

/-- read a source -/
def build (name : String) (kind : Kind) (source : String) : Except Fault Grammar :=
  match Pattern.read source with
  | .ok p => .ok ⟨name, kind, source, p⟩
  | .error e => .error (e.fault source)

/-- a grammar of the library's own; a source that could not be read would match nothing -/
def builtin (name : String) (kind : Kind) (source : String) : Grammar :=
  ⟨name, kind, source, (Pattern.read source).toOption.getD .never⟩

end Grammar

/-! ## Sources -/

/-- lower-case letters and digits in groups joined by single hyphens, a letter first -/
def segmentSource : String := "[a-z][a-z0-9]*(?:-[a-z0-9]+)*"

def blockSource : String := "^" ++ segmentSource ++ "$"

def elementSource : String := "^" ++ segmentSource ++ "_" ++ segmentSource ++ "$"

def nestedElementSource : String := "^" ++ segmentSource ++ "_" ++ segmentSource ++ "__" ++ segmentSource ++ "$"

def modifierSource : String :=
  "^" ++ segmentSource ++ "(?:_" ++ segmentSource ++ ")?(?:__" ++ segmentSource ++ ")?--" ++ segmentSource ++ "$"

def stateSource : String := "^(is|has)[A-Z][a-zA-Z0-9]*$"

def blockGrammar : Grammar := .builtin "block" .block blockSource

def elementGrammar : Grammar := .builtin "element" .element elementSource

def nestedElementGrammar : Grammar := .builtin "nestedElement" .nestedElement nestedElementSource

def modifierGrammar : Grammar := .builtin "modifier" .modifier modifierSource

def stateGrammar : Grammar := .builtin "state" .state stateSource

/-- the grammars of the catalog, each named after its category -/
def utilityGrammars : List Grammar :=
  utilityCatalog.flatMap fun (category, sources) =>
    sources.map (Grammar.builtin ("utility:" ++ category) .utility)

/-! ## Libraries -/

/-- grammars for kinds, and grammars for utilities in order of look-up -/
structure Library where
  grammars : List Grammar
  utilities : List Grammar

namespace Library

/-- the grammar for a kind -/
def grammar? (l : Library) (kind : Kind) : Option Grammar :=
  l.grammars.find? (·.kind == kind)

/-- refuse a second grammar for a kind -/
def checkKinds : List Kind → List Grammar → Except Fault Unit
  | _, [] => .ok ()
  | seen, g :: rest => if seen.contains g.kind then .error (.duplicateGrammar g.kind) else checkKinds (g.kind :: seen) rest

/-- a library of given grammars -/
def build (grammars utilities : List Grammar) : Except Fault Library := do
  checkKinds [] grammars
  return ⟨grammars, utilities⟩

/-- the category in a utility's name: what follows the first colon -/
def category? (name : String) : Option String :=
  let cs := name.toList
  if cs.contains ':' then some (String.ofList ((cs.dropWhile (· != ':')).drop 1)) else none

/-- the categories of the utilities, each once, in order -/
def categories (l : Library) : Except Fault (List String) :=
  l.utilities.foldlM (fun seen g =>
    match category? g.name with
    | none => .error .indexOutOfRange
    | some c => .ok (if seen.contains c then seen else seen ++ [c])) []

/-- the first utility grammar that accepts the token -/
def findUtility? (l : Library) (token : String) : Option Grammar :=
  l.utilities.find? (·.accepts token)

/-- a utility grammar, or one of the extra patterns, matches the whole token -/
def isUtility (l : Library) (extra : List Pattern) (token : String) : Bool :=
  l.utilities.any (·.accepts token) || extra.any (·.fullMatches token)

/-- the number of grammars -/
def size (l : Library) : Nat :=
  l.grammars.length + l.utilities.length

/-- the library of this convention -/
def builtin : Library :=
  ⟨[blockGrammar, elementGrammar, nestedElementGrammar, modifierGrammar, stateGrammar], utilityGrammars⟩

end Library

/-! ## Sources for other tools -/

/-- one source that matches what any of several match -/
def alternation (sources : List String) : String :=
  "(?:" ++ "|".intercalate sources ++ ")"

/-- the exported sources by name -/
def exportedSources : List (String × String) :=
  let bem := [blockSource, elementSource, nestedElementSource, modifierSource]
  [("block", blockSource), ("element", elementSource), ("nestedElement", nestedElementSource),
    ("modifier", modifierSource), ("state", stateSource), ("hcnc", alternation bem),
    ("hcncWithState", alternation (bem ++ [stateSource]))]

/-- the exported sources under the names that lint rules use -/
def lintSources : List (String × String) :=
  let bem := [blockSource, elementSource, nestedElementSource, modifierSource]
  [("validHcncClass", alternation (bem ++ [stateSource])), ("block", blockSource), ("element", elementSource),
    ("nestedElement", nestedElementSource), ("modifier", modifierSource), ("state", stateSource)]

end ClassNaming
