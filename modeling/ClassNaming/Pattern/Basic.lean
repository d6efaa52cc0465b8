/-
Patterns over characters: the tree that a pattern source is read into.

A pattern tests one character at a time, in sequence, by choice and by repetition; it can name what a part matched and ask
for it again, and it can look ahead or behind without moving. Characters in a test are given by code point, so a
source may speak of code points that no text holds.
-/
import ClassNaming.Text.Blank
import ClassNaming.Text.Case
import ClassNaming.Text.Letter

namespace ClassNaming

/-- the classes of characters that have a name in sources -/
inductive Category where
  | digit
  | space
  | word
deriving DecidableEq, Repr

/-- membership in a named class: over ASCII, or over all scripts when `wide` -/
def Category.holds (wide : Bool) (category : Category) (c : Char) : Bool :=
  let n := c.toNat
  if wide then
    match category with
    | .digit => (Text.decimalDigit? c).isSome
    | .space => Text.isBlank c
    | .word => Text.isLetter c || Text.isNumeric c || n == 95
  else
    match category with
    | .digit => 48 ≤ n && n ≤ 57
    | .space => n == 32 || (9 ≤ n && n ≤ 13)
    | .word => (48 ≤ n && n ≤ 57) || (65 ≤ n && n ≤ 90) || (97 ≤ n && n ≤ 122) || n == 95

/-- one entry of a character set -/
inductive SetItem where
  | one (code : Nat)
  | range (low high : Nat)
  | category (name : Category) (negated : Bool)
deriving DecidableEq, Repr

/-- a test of one character -/
structure CharSet where
  negated : Bool
  items : List SetItem
  /-- letter case does not count -/
  fold : Bool
  /-- named classes and letter case reach beyond ASCII -/
  wide : Bool
deriving DecidableEq, Repr

/-- the other letter case of an ASCII letter -/
def swapCase (c : Char) : Char :=
  if 'a' ≤ c && c ≤ 'z' then Char.ofNat (c.toNat - 32)
  else if 'A' ≤ c && c ≤ 'Z' then Char.ofNat (c.toNat + 32)
  else c

/-- the characters that count as `c` when letter case does not -/
def caseVariants (wide : Bool) (c : Char) : List Char :=
  if wide then
    let small := Char.ofNat (Text.mapRuns Text.lowerRuns c.toNat)
    [c, small, Char.ofNat (Text.mapRuns Text.upperRuns small.toNat)]
  else [c, swapCase c]

/-- the entry covers the character as it stands -/
def SetItem.covers (wide : Bool) (c : Char) : SetItem → Bool
  | .one code => c.toNat == code
  | .range low high => low ≤ c.toNat && c.toNat ≤ high
  | .category name negated => negated != name.holds wide c

/-- the character passes the test -/
def CharSet.holds (set : CharSet) (c : Char) : Bool :=
  let variants := if set.fold then caseVariants set.wide c else [c]
  set.negated != set.items.any fun item => variants.any (item.covers set.wide)

/-- places in a text -/
inductive Anchor where
  /-- the start of the text -/
  | textStart
  /-- the start of a line -/
  | lineStart
  /-- the end of the text -/
  | textEnd
  /-- the end of the text, or before a line feed that ends it -/
  | lastLineEnd
  /-- the end of a line -/
  | lineEnd
  /-- between a word character and another one, or not so when negated -/
  | boundary (negated wide : Bool)
deriving DecidableEq, Repr

/-- the order in which numbers of repetitions are tried -/
inductive Greed where
  /-- most first -/
  | greedy
  /-- fewest first -/
  | reluctant
  /-- most, and no other -/
  | possessive
deriving DecidableEq, Repr

/-- the name a kind of repetition goes by in error messages -/
def Greed.operator : Greed → String
  | .greedy => "MAX_REPEAT"
  | .reluctant => "MIN_REPEAT"
  | .possessive => "POSSESSIVE_REPEAT"

/-- a pattern -/
inductive Pattern where
  | empty
  | char (set : CharSet)
  | seq (first second : Pattern)
  | alt (first second : Pattern)
  /-- a part whose match is kept under a number -/
  | group (number : Nat) (body : Pattern)
  | rep (body : Pattern) (least : Nat) (most : Option Nat) (greed : Greed)
  | anchor (place : Anchor)
  /-- the body matches ahead, or does not when negated -/
  | ahead (negated : Bool) (body : Pattern)
  /-- the body matches the `width` characters before, or does not when negated -/
  | behind (negated : Bool) (width : Nat) (body : Pattern)
  /-- what a group matched, again -/
  | again (number : Nat) (fold wide : Bool)
  /-- one of two patterns, by whether a group has matched -/
  | ifGroup (number : Nat) (present absent : Pattern)
  /-- the first way in which the body matches, and no other -/
  | atomic (body : Pattern)
deriving DecidableEq, Repr

namespace Pattern

/-- a pattern that one given character matches -/
def ofChar (c : Char) : Pattern :=
  .char ⟨false, [.one c.toNat], false, false⟩

/-- patterns one after the other -/
def sequence : List Pattern → Pattern
  | [] => .empty
  | [p] => p
  | p :: rest => .seq p (sequence rest)

/-- one of several patterns, earlier ones first -/
def choice : List Pattern → Pattern
  | [] => .empty
  | [p] => p
  | p :: rest => .alt p (choice rest)

end Pattern

end ClassNaming
