/-
Why a token has no kind: checks on its shape, each giving at most one suggestion.

- a run of exactly two underscores and none of exactly one: the first such run should be one underscore;
- `is` or `has` with no capital after it: a state is written in camel case;
- a capital letter in a token that is no state;
- three underscores in a row.
-/
import ClassNaming.Naming.Classify

namespace ClassNaming

/-- one finding about a token -/
structure Suggestion where
  check : String
  text : String
deriving DecidableEq, Repr

namespace Diagnosis

/-- after the character `last`, `rest` starts with a run of exactly `count` underscores -/
def loneRun (count : Nat) (last : Option Char) (rest : List Char) : Bool :=
  last != some '_' && (List.replicate count '_').isPrefixOf rest && (rest.drop count).head? != some '_'

/-- a run of exactly `count` underscores starts somewhere in `rest`, which follows the character `last` -/
def hasLoneRun (count : Nat) : Option Char → List Char → Bool
  | last, [] => loneRun count last []
  | last, c :: rest => loneRun count last (c :: rest) || hasLoneRun count (some c) rest

/-- the first run of exactly two underscores made one -/
def shortenPair : Option Char → List Char → List Char
  | _, [] => []
  | last, c :: rest => if loneRun 2 last (c :: rest) then rest else c :: shortenPair (some c) rest

def isCapital (c : Char) : Bool := 'A' ≤ c && c ≤ 'Z'

def doubleUnderscore (token : List Char) : Option Suggestion :=
  if hasLoneRun 2 none token && !hasLoneRun 1 none token then
    some ⟨"double-underscore",
      "Use single underscore for first-level elements: \"" ++ String.ofList (shortenPair none token) ++ "\""⟩
  else none

/-- the first character in upper case -/
def capitalise : List Char → List Char
  | [] => []
  | c :: rest => Text.upper c ++ rest

/-- the camel-case form of a token that starts with `lead` and goes on without a capital -/
def camelForm? (lead token : List Char) : Option (List Char) :=
  if !lead.isPrefixOf token then none
  else
    let rest := token.drop lead.length
    if (rest.head?.map isCapital).getD false then none
    else match rest.dropWhile fun c => c == '-' || c == '_' with
      | [] => none
      | c :: more => some (lead ++ capitalise (c :: more))

def camelState (lead : String) (token : List Char) : Option Suggestion :=
  (camelForm? lead.toList token).map fun form =>
    ⟨lead ++ "-prefix", "State classes should use camelCase: \"" ++ String.ofList form ++ "\""⟩

def uppercase (token : List Char) : Option Suggestion :=
  if token.any isCapital && !isState (String.ofList token) then
    some ⟨"uppercase", "HCNC classes (except states) should be lowercase"⟩
  else none

/-- three underscores in a row stand somewhere -/
def hasTriple : List Char → Bool
  | [] => false
  | c :: rest => ['_', '_', '_'].isPrefixOf (c :: rest) || hasTriple rest

def nestingDepth (token : List Char) : Option Suggestion :=
  if hasTriple token then some ⟨"nesting-depth", "Maximum nesting is 2 levels (use __ for nested elements)"⟩ else none

/-- the checks, in order -/
def checks : List (List Char → Option Suggestion) :=
  [doubleUnderscore, camelState "is", camelState "has", uppercase, nestingDepth]

end Diagnosis

/-- every suggestion for a token -/
def diagnose (token : String) : List Suggestion :=
  Diagnosis.checks.filterMap (· token.toList)

/-- the message for a token that fails -/
def failureMessage (token : String) (suggestions : List Suggestion) : String :=
  if suggestions.isEmpty then "Class \"" ++ token ++ "\" does not match HCNC naming convention"
  else
    "Class \"" ++ token ++ "\" does not match HCNC convention. " ++ ". ".intercalate (suggestions.map (·.text))

/-- the note on an unknown token that passes -/
def unknownMessage (token : String) : String :=
  "Unknown class \"" ++ token ++ "\" (allowed by config)"

/-- the failure message with the token's own suggestions -/
def explain (token : String) : String :=
  failureMessage token (diagnose token)

end ClassNaming
