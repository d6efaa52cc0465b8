/-
Lexemes of a pattern source and the state of its reader.

A lexeme is a single character or a backslash with the character after it. The reader is always one lexeme ahead, so a
backslash that ends the source is a fault as soon as it comes next.
-/
import ClassNaming.Pattern.Error
import ClassNaming.Pattern.Flags
import ClassNaming.Pattern.Width

namespace ClassNaming.Pattern

/-! ## Lexemes -/

/-- one or two characters of a source, and where they start -/
structure Lexeme where
  chars : List Char
  position : Nat
deriving DecidableEq, Repr

namespace Lexeme

/-- the lexeme is the single character `c` -/
def isChar (l : Lexeme) (c : Char) : Bool := l.chars == [c]

/-- the character after a backslash -/
def escaped? (l : Lexeme) : Option Char :=
  match l.chars with
  | ['\\', c] => some c
  | _ => none

/-- a single character satisfying `p` -/
def single? (p : Char → Bool) (l : Lexeme) : Option Char :=
  match l.chars with
  | [c] => if p c then some c else none
  | _ => none

/-- a backslash with nothing after it -/
def isDangling (l : Lexeme) : Bool := l.isChar '\\'

end Lexeme

/-- cut a source into lexemes, the first at `position` -/
def lexemes (position : Nat) : List Char → List Lexeme
  | [] => []
  | '\\' :: c :: rest => ⟨['\\', c], position⟩ :: lexemes (position + 2) rest
  | c :: rest => ⟨[c], position⟩ :: lexemes (position + 1) rest

/-! ## Reader state -/

structure ReaderState where
  /-- what is left; the first lexeme is the next one -/
  left : List Lexeme
  /-- the length of the source -/
  total : Nat
  /-- flags set for the whole source -/
  flags : Flags
  /-- the number of groups opened, the whole pattern included -/
  groups : Nat
  names : List (String × Nat)
  /-- widths of the groups that are closed -/
  widths : List (Nat × Width)
  /-- inside a look behind: the number of groups opened before it -/
  behindFrom : Option Nat
  /-- groups that conditions ask for, and where -/
  asked : List (Nat × Nat)
  /-- a look behind whose body has no fixed width was seen -/
  looseBehind : Bool

abbrev Reader := StateT ReaderState (Except PatternError)

/-- the place of the next lexeme -/
def tell : Reader Nat := do
  let st ← get
  return (st.left.head?.map (·.position)).getD st.total

/-- fail at `offset` characters before the next lexeme -/
def failAt {α : Type} (reason : String) (offset : Nat) : Reader α := do
  throw (.located reason ((← tell) - offset))

/-- fail at a place of the source -/
def failHere {α : Type} (reason : String) (position : Nat) : Reader α :=
  throw (.located reason position)

/-- refuse a dangling backslash that comes next -/
def checkNext : Reader Unit := do
  let st ← get
  match st.left.head? with
  | some l => if l.isDangling then failHere "bad escape (end of pattern)" (st.total - 1) else pure ()
  | none => pure ()

/-- the next lexeme -/
def peek : Reader (Option Lexeme) := do
  return (← get).left.head?

/-- go past the next lexeme -/
def advance : Reader Unit := do
  modify fun st => { st with left := st.left.tail }
  checkNext

/-- take the next lexeme -/
def take : Reader (Option Lexeme) := do
  let l ← peek
  advance
  return l

/-- take the next lexeme if it is the character `c` -/
def accept (c : Char) : Reader Bool := do
  match ← peek with
  | some l => if l.isChar c then advance; return true else return false
  | none => return false

/-- take up to `count` characters satisfying `p` -/
def takeWhile (p : Char → Bool) : Nat → Reader (List Char)
  | 0 => return []
  | count + 1 => do
    match (← peek).bind (Lexeme.single? p) with
    | some c =>
      advance
      return c :: (← takeWhile p count)
    | none => return []

/-- take lexemes up to the character `stop`; `what` names what is read -/
def takeUntil (stop : Char) (what : String) : Nat → List Char → Reader (List Char)
  | 0, done => return done
  | fuel + 1, done => do
    match ← take with
    | none =>
      if done.isEmpty then failAt ("missing " ++ what) 0
      else failAt ("missing " ++ String.singleton stop ++ ", unterminated name") done.length
    | some l =>
      if l.isChar stop then
        if done.isEmpty then failAt ("missing " ++ what) 1 else return done
      else takeUntil stop what fuel (done ++ l.chars)

/-- the number of lexemes left, and one -/
def fuelLeft : Reader Nat := do
  return (← get).left.length + 1

end ClassNaming.Pattern
