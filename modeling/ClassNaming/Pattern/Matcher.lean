/-
Matching a text against a pattern.

`Pattern.run p spot k` tries the ways in which `p` matches from `spot`, in the order the pattern prefers, and hands the
place after each to `k` until `k` accepts one. Repetition is bounded by the text that is left: a turn that takes no
character is not followed by another, so one turn more than there are characters is the most that can matter.

`Pattern.fullMatches` asks for a way that takes the whole text; `Pattern.found` for one that starts anywhere.
-/
import ClassNaming.Pattern.Basic

namespace ClassNaming

/-- a place in a text: what is before it (nearest first), what is after it, and what the groups have matched -/
structure Spot where
  past : List Char
  rest : List Char
  groups : List (Nat × List Char)
deriving DecidableEq, Repr

namespace Spot

/-- the start of a text -/
def start (cs : List Char) : Spot := ⟨[], cs, []⟩

/-- the text a group last matched -/
def group? (s : Spot) (number : Nat) : Option (List Char) :=
  (s.groups.find? (·.1 == number)).map (·.2)

/-- keep a match under a number -/
def keep (s : Spot) (number : Nat) (text : List Char) : Spot :=
  { s with groups := (number, text) :: s.groups.filter (·.1 != number) }

/-- the place `width` characters back -/
def back? (s : Spot) (width : Nat) : Option Spot :=
  if width ≤ s.past.length then
    some { s with past := s.past.drop width, rest := (s.past.take width).reverse ++ s.rest }
  else none

/-- take characters that count as the given ones -/
def take? (same : Char → Char → Bool) : List Char → Spot → Option Spot
  | [], s => some s
  | c :: cs, s =>
    match s.rest with
    | d :: rest => if same c d then take? same cs { s with past := d :: s.past, rest := rest } else none
    | [] => none

/-- the characters between an earlier place and this one -/
def since (earlier : Spot) (s : Spot) : List Char :=
  earlier.rest.take (earlier.rest.length - s.rest.length)

end Spot

/-- the place is of the given sort -/
def Anchor.holds (s : Spot) : Anchor → Bool
  | .textStart => s.past.isEmpty
  | .lineStart => s.past.isEmpty || s.past.head? == some '\n'
  | .textEnd => s.rest.isEmpty
  | .lastLineEnd => s.rest.isEmpty || s.rest == ['\n']
  | .lineEnd => s.rest.isEmpty || s.rest.head? == some '\n'
  | .boundary negated wide =>
    let word (side : List Char) : Bool := (side.head?.map (Category.holds wide .word)).getD false
    !(s.past.isEmpty && s.rest.isEmpty) && (negated != (word s.past != word s.rest))

namespace Pattern

/-- what is done with a place that a pattern reaches -/
abbrev Next := Spot → Option Spot

/-- `count` turns of a step -/
def turns (step : Spot → Next → Option Spot) : Nat → Spot → Next → Option Spot
  | 0, s, k => k s
  | count + 1, s, k => step s fun t => turns step count t k

/-- up to `most` further turns of a step, none after a turn that took no character -/
def moreTurns (step : Spot → Next → Option Spot) (reluctant : Bool) : Nat → Option Nat → Bool → Spot → Next → Option Spot
  | 0, _, _, s, k => k s
  | fuel + 1, most, idle, s, k =>
    if idle || most == some 0 then k s
    else
      let again (_ : Unit) : Option Spot := step s fun t =>
        moreTurns step reluctant fuel (most.map (· - 1)) (t.rest.length == s.rest.length) t k
      if reluctant then
        match k s with
        | some found => some found
        | none => again ()
      else
        match again () with
        | some found => some found
        | none => k s

/-- try the ways in which a pattern matches from a place -/
def run : Pattern → Spot → Next → Option Spot
  | .empty, s, k => k s
  | .char set, s, k =>
    match s.rest with
    | c :: rest => if set.holds c then k { s with past := c :: s.past, rest := rest } else none
    | [] => none
  | .seq p q, s, k => run p s fun t => run q t k
  | .alt p q, s, k =>
    match run p s k with
    | some found => some found
    | none => run q s k
  | .group number p, s, k => run p s fun t => k (t.keep number (s.since t))
  | .rep p least most greed, s, k =>
    let more := most.map (· - least)
    match greed with
    | .greedy =>
      turns (run p) least s fun t => moreTurns (run p) false (t.rest.length + 2) more false t k
    | .reluctant =>
      turns (run p) least s fun t => moreTurns (run p) true (t.rest.length + 2) more false t k
    | .possessive =>
      let once (t : Spot) (next : Next) : Option Spot := (run p t some).bind next
      (turns once least s fun t => moreTurns once false (t.rest.length + 2) more false t some).bind k
  | .anchor place, s, k => if place.holds s then k s else none
  | .ahead negated p, s, k =>
    match run p s some with
    | some t => if negated then none else k { s with groups := t.groups }
    | none => if negated then k s else none
  | .behind negated width p, s, k =>
    match (s.back? width).bind fun t => run p t fun u => if u.rest.length == s.rest.length then some u else none with
    | some t => if negated then none else k { s with groups := t.groups }
    | none => if negated then k s else none
  | .again number fold wide, s, k =>
    match s.group? number with
    | none => none
    | some text =>
      let same (c d : Char) : Bool := if fold then (caseVariants wide c).any ((caseVariants wide d).contains ·) else c == d
      (s.take? same text).bind k
  | .ifGroup number p q, s, k => if (s.group? number).isSome then run p s k else run q s k
  | .atomic p, s, k => (run p s some).bind k

/-- accept the end of the text only -/
def atEnd (s : Spot) : Option Spot :=
  if s.rest.isEmpty then some s else none

/-- the pattern matches the whole text -/
def matchesChars (p : Pattern) (cs : List Char) : Bool :=
  (run p (Spot.start cs) atEnd).isSome

/-- the pattern matches the whole text -/
def fullMatches (p : Pattern) (s : String) : Bool :=
  p.matchesChars s.toList

/-- the pattern matches from some place of `rest`, of which `past` (reversed) stands before -/
def foundFrom (p : Pattern) (past : List Char) : List Char → Bool
  | [] => (run p ⟨past, [], []⟩ some).isSome
  | c :: rest => (run p ⟨past, c :: rest, []⟩ some).isSome || foundFrom p (c :: past) rest

/-- the pattern matches some part of the text -/
def found (p : Pattern) (s : String) : Bool :=
  foundFrom p [] s.toList

end Pattern

end ClassNaming
