/-
The marks a report is written with: one set of signs, one set of plain ASCII forms.

`SymbolSet.preferred` takes a stated preference first and else asks whether the terminal is likely to show signs. The
environment can settle that either way; without it the name of the output encoding decides, and last the locale.
-/
import ClassNaming.Environment
import ClassNaming.Naming.Kind
import ClassNaming.Text.Case
import ClassNaming.Text.Search
import ClassNaming.Value.Basic

namespace ClassNaming

/-- the marks for states and structure -/
structure SymbolSet where
  pass : String
  fail : String
  warn : String
  arrow : String
  branch : String
  lastBranch : String
  bullet : String
  ellipsis : String
deriving DecidableEq, Repr

namespace SymbolSet

def unicode : SymbolSet := ⟨"✓", "✗", "⚠", "→", "├─", "└─", "•", "…"⟩

def ascii : SymbolSet := ⟨"[OK]", "[X]", "[!]", "->", "+-", "+-", "*", "..."⟩

/-- the marks in their order -/
def marks (s : SymbolSet) : List String :=
  [s.pass, s.fail, s.warn, s.arrow, s.branch, s.lastBranch, s.bullet, s.ellipsis]

end SymbolSet

/-- where a report goes: the environment of the run and the name of the output encoding, if it has one -/
structure Console where
  env : Environment
  encoding : Option String
deriving Repr, Inhabited

namespace Console

/-- the variable is set to a word of consent -/
def consents (c : Console) (name : String) : Bool :=
  ["1", "true", "yes"].contains (Text.lower (c.env.get name))

/-- what the name of the encoding says about signs, if it says anything -/
def encodingShows? (c : Console) : Option Bool := do
  let name := (Text.lower (← c.encoding)).toList.filter fun ch => ch != '-' && ch != '_'
  if Text.startsWith "utf".toList name then some true
  else if Text.startsWith "cp".toList name || ["ascii", "latin1", "iso88591"].any (·.toList == name) then some false
  else none

/-- the locale names a Unicode encoding -/
def localeShows (c : Console) : Bool :=
  let stated := c.env.get "LC_ALL"
  let locale := (Text.lower (if stated.isEmpty then c.env.get "LANG" else stated)).toList
  Text.contains "utf-8".toList locale || Text.contains "utf8".toList locale

/-- the console is likely to show signs -/
def showsUnicode (c : Console) : Bool :=
  if c.consents "HCNC_ASCII_ONLY" then false
  else if c.consents "HCNC_UNICODE" then true
  else (c.encodingShows?).getD c.localeShows

/-- the set that fits the console -/
def detected (c : Console) : SymbolSet :=
  if c.showsUnicode then .unicode else .ascii

/-- the set for a stated preference; any value but the two names leaves the choice to the console -/
def preferred (c : Console) (preference : Value) : SymbolSet :=
  match preference with
  | .text "unicode" => .unicode
  | .text "ascii" => .ascii
  | _ => c.detected

end Console

/-- one judged token as a line: the mark, the token, and the kind of a valid one -/
def SymbolSet.resultLine (s : SymbolSet) (token : String) (valid : Bool) (kind : Option Kind) : String :=
  if valid then s.pass ++ " " ++ token ++ " (" ++ ((kind.map Kind.word).getD "unknown") ++ ")"
  else s.fail ++ " " ++ token

end ClassNaming
