/-
Writing JSON text, non-ASCII characters kept.

`pretty` puts each member on a line of its own, two blanks deeper than its bracket, and keeps empty brackets closed;
`compact` writes one line with a blank after each comma and colon; `dense` writes one line without blanks.
-/
import ClassNaming.Decimal.Layout
import ClassNaming.Value.Shown

namespace ClassNaming.Json

/-- one character inside a JSON string -/
def stringChar (c : Char) : List Char :=
  match c with
  | '"' => ['\\', '"']
  | '\\' => ['\\', '\\']
  | '\n' => ['\\', 'n']
  | '\r' => ['\\', 'r']
  | '\t' => ['\\', 't']
  | '\x0c' => ['\\', 'f']
  | '\x08' => ['\\', 'b']
  | c => if c.toNat < 0x20 then '\\' :: 'u' :: Text.hexDigits 4 c.toNat else [c]

/-- a string literal -/
def stringText (s : String) : String :=
  String.ofList ('"' :: s.toList.flatMap stringChar ++ ['"'])

/-- how one-line JSON is spaced and how its numbers are written -/
structure Style where
  comma : String
  colon : String
  real : Real64 → String

/-- the text of a number in JSON files -/
def realText : Real64 → String
  | .nan => "NaN"
  | .infinite s => if s then "-Infinity" else "Infinity"
  | x => x.text

/-- the text of a number in log records, where what is not finite is null -/
def realDense : Real64 → String
  | .finite s m e =>
    let (d, k) := if m == 0 then (0, 0) else Real64.shortest m e
    Real64.lay .dense s d k
  | _ => "null"

def Style.compact : Style := ⟨", ", ": ", realText⟩

def Style.dense : Style := ⟨",", ":", realDense⟩

/-- the text of a scalar; what JSON has no form for is written as the text it is shown as -/
def scalarText (real : Real64 → String) : Scalar → String
  | .null => "null"
  | .bool b => if b then "true" else "false"
  | .int n => intText n
  | .real x => real x
  | .text s => stringText s
  | .date d => stringText d.text
  | .moment m => stringText (m.textWith " ")
  | .kind k => stringText k.word
  | .path p => stringText p
  | .foreign x => stringText x.text

/-- the name of a member -/
def keyText : Scalar → String
  | .text s => stringText s
  | s => stringText (scalarText realText s)

mutual

/-- a value on one line -/
def line (style : Style) : Value → String
  | .scalar s => scalarText style.real s
  | .list items => "[" ++ style.comma.intercalate (lineItems style items) ++ "]"
  | .map entries => "\x7b" ++ style.comma.intercalate (lineEntries style entries) ++ "\x7d"
  | .record _ _ entries => "\x7b" ++ style.comma.intercalate (lineEntries style entries) ++ "\x7d"

def lineItems (style : Style) : List Value → List String
  | [] => []
  | v :: rest => line style v :: lineItems style rest

def lineEntries (style : Style) : List (Scalar × Value) → List String
  | [] => []
  | (k, v) :: rest => (keyText k ++ style.colon ++ line style v) :: lineEntries style rest

end

def compact (v : Value) : String := line .compact v

def dense (v : Value) : String := line .dense v

/-- the break before a member at a depth -/
def lineBreak (depth : Nat) : String :=
  "\n" ++ String.ofList (List.replicate (2 * depth) ' ')

/-- members between brackets, each on a line of its own -/
def bracketed (opening closing : String) (depth : Nat) (members : List String) : String :=
  if members.isEmpty then opening ++ closing
  else opening ++ lineBreak (depth + 1) ++ ("," ++ lineBreak (depth + 1)).intercalate members ++ lineBreak depth ++ closing

mutual

/-- a value at a depth, over several lines -/
def prettyAt (depth : Nat) : Value → String
  | .scalar s => scalarText realText s
  | .list items => bracketed "[" "]" depth (prettyItems depth items)
  | .map entries => bracketed "\x7b" "\x7d" depth (prettyEntries depth entries)
  | .record _ _ entries => bracketed "\x7b" "\x7d" depth (prettyEntries depth entries)

def prettyItems (depth : Nat) : List Value → List String
  | [] => []
  | v :: rest => prettyAt (depth + 1) v :: prettyItems depth rest

def prettyEntries (depth : Nat) : List (Scalar × Value) → List String
  | [] => []
  | (k, v) :: rest => (keyText k ++ ": " ++ prettyAt (depth + 1) v) :: prettyEntries depth rest

end

/-- a value over several lines -/
def pretty (v : Value) : String := prettyAt 0 v

end ClassNaming.Json
