/-
The flat selectors of nested style rules.

The text is read line by line with a stack of open selectors. A line that is nothing but a list of selectors, with or
without an opening brace, opens a rule: a leading `&` is joined to the innermost open selector, the results that start
with a dot are recorded without it, and the first result is pushed. A line with a closing brace closes one rule. Any
other line changes nothing.
-/
import ClassNaming.Extract.Selector
import ClassNaming.Extract.Words

namespace ClassNaming.Extract

/-- a character a selector may start with, after its dot or hash -/
def isSelectorStart (c : Char) : Bool :=
  isNameStart c || c == '&'

/-- a selector without its dot or hash, and what follows it -/
def bareSelector? : List Char → Option (List Char × List Char)
  | [] => none
  | c :: rest =>
    if isSelectorStart c then some (c :: rest.takeWhile isNamePart, rest.dropWhile isNamePart) else none

/-- a selector at the front, and what follows it -/
def selectorPart? : List Char → Option (List Char × List Char)
  | [] => none
  | c :: rest =>
    if c == '.' || c == '#' then (bareSelector? rest).map fun (name, more) => (c :: name, more)
    else bareSelector? (c :: rest)

def skipBlank (cs : List Char) : List Char :=
  cs.dropWhile Text.isBlank

/-- nothing but blanks and at most one opening brace -/
def isOpeningTail (cs : List Char) : Bool :=
  match skipBlank cs with
  | [] => true
  | c :: rest => c == '\x7b' && (skipBlank rest).isEmpty

/-- the selectors after the first, `fuel` at most -/
def moreSelectors? : Nat → List Char → Option (List (List Char))
  | 0, _ => none
  | fuel + 1, cs =>
    match skipBlank cs with
    | ',' :: rest => do
      let (name, more) ← selectorPart? (skipBlank rest)
      return name :: (← moreSelectors? fuel more)
    | _ => if isOpeningTail cs then some [] else none

/-- the selectors of a line that opens a rule -/
def opening? (line : List Char) : Option (List (List Char)) := do
  let (name, rest) ← selectorPart? line
  return name :: (← moreSelectors? (rest.length + 1) rest)

/-- a selector inside the rule of `parent` -/
def resolve (parent : List Char) : List Char → List Char
  | '&' :: rest => parent ++ rest
  | part => part

/-- the class a resolved selector stands for -/
def className? : List Char → Option (List Char)
  | '.' :: rest => some rest
  | _ => none

/-- open selectors, innermost first, and the classes recorded so far -/
structure Nest where
  stack : List (List Char)
  found : List (List Char)
deriving DecidableEq, Repr

namespace Nest

/-- no open selector, nothing recorded -/
def start : Nest := ⟨[], []⟩

/-- open a rule with given selectors -/
def push (n : Nest) (parts : List (List Char)) : Nest :=
  let resolved := parts.map (resolve (n.stack.headD []))
  ⟨resolved.headD [] :: n.stack, n.found ++ resolved.filterMap className?⟩

/-- read one line -/
def step (n : Nest) (line : List Char) : Nest :=
  let trimmed := Text.trim line
  let opened := match opening? trimmed with
    | some parts => n.push parts
    | none => n
  if trimmed.contains '\x7d' then { opened with stack := opened.stack.tail } else opened

end Nest

/-- the classes of nested rules, given as lines -/
def expandLines (lines : List (List Char)) : List (List Char) :=
  (lines.foldl Nest.step Nest.start).found

/-- the classes of nested rules -/
def nested (s : String) : List String :=
  (expandLines (pieces (· == '\n') s.toList)).map String.ofList

end ClassNaming.Extract
