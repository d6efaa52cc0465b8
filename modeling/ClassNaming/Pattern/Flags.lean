/-
Options of a pattern source: letter case, lines, layout and alphabet.
-/

namespace ClassNaming.Pattern

/-- options that change what parts of a source mean -/
structure Flags where
  ignoreCase : Bool := false
  multiLine : Bool := false
  dotAll : Bool := false
  verbose : Bool := false
  ascii : Bool := false
  wide : Bool := false
  template : Bool := false
deriving DecidableEq, Repr

/-- switch one flag letter on -/
def Flags.withLetter? (flags : Flags) (c : Char) : Option Flags :=
  match c with
  | 'i' => some { flags with ignoreCase := true }
  | 'L' => some flags
  | 'm' => some { flags with multiLine := true }
  | 's' => some { flags with dotAll := true }
  | 'x' => some { flags with verbose := true }
  | 'a' => some { flags with ascii := true }
  | 't' => some { flags with template := true }
  | 'u' => some { flags with wide := true }
  | _ => none

/-- the character names a flag -/
def isFlagLetter (c : Char) : Bool :=
  "iLmsxatu".toList.contains c

/-- both sets of flags -/
def Flags.union (a b : Flags) : Flags where
  ignoreCase := a.ignoreCase || b.ignoreCase
  multiLine := a.multiLine || b.multiLine
  dotAll := a.dotAll || b.dotAll
  verbose := a.verbose || b.verbose
  ascii := a.ascii || b.ascii
  wide := a.wide || b.wide
  template := a.template || b.template

/-- the flags of `a` that are not in `b` -/
def Flags.minus (a b : Flags) : Flags where
  ignoreCase := a.ignoreCase && !b.ignoreCase
  multiLine := a.multiLine && !b.multiLine
  dotAll := a.dotAll && !b.dotAll
  verbose := a.verbose && !b.verbose
  ascii := a.ascii && !b.ascii
  wide := a.wide && !b.wide
  template := a.template && !b.template

/-- the flags inside a group that switches some on and some off; a choice of alphabet replaces the one outside -/
def Flags.within (outer on off : Flags) : Flags :=
  let outer := if on.ascii || on.wide then { outer with ascii := false, wide := false } else outer
  (outer.union on).minus off

end ClassNaming.Pattern
