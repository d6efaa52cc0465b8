/-
Reading JSON text.

The reader takes the characters from the left and stops at the first fault. A fault remembers how much text was left, so
its place is the length of the whole text minus that. Besides plain JSON it takes `NaN`, `Infinity` and `-Infinity`;
of two members with one name the later value counts, in the place of the earlier.
-/
import ClassNaming.Decimal.Layout
import ClassNaming.Decimal.Reading
import ClassNaming.Text.Quoted
import ClassNaming.Value.Basic

namespace ClassNaming.Json

/-- what is wrong with a text -/
inductive Reason where
  | value
  | propertyName
  | colon
  | comma
  | unterminated
  | control
  | badEscape
  | badUnicodeEscape
  | extra
  | byteOrderMark
deriving DecidableEq, Repr

def Reason.message : Reason → String
  | .value => "Expecting value"
  | .propertyName => "Expecting property name enclosed in double quotes"
  | .colon => "Expecting ':' delimiter"
  | .comma => "Expecting ',' delimiter"
  | .unterminated => "Unterminated string starting at"
  | .control => "Invalid control character at"
  | .badEscape => "Invalid \\escape"
  | .badUnicodeEscape => "Invalid \\uXXXX escape"
  | .extra => "Extra data"
  | .byteOrderMark => "Unexpected UTF-8 BOM (decode using utf-8-sig)"

/-- a fault: a broken rule with the number of characters left at its place, or an integer with too many digits -/
inductive Stop where
  | fault (reason : Reason) (left : Nat)
  | longInteger (digits : Nat)
deriving DecidableEq, Repr

/-- the white space of JSON -/
def isSpace (c : Char) : Bool :=
  c == ' ' || c == '\t' || c == '\n' || c == '\r'

def skipSpace (cs : List Char) : List Char :=
  cs.dropWhile isSpace

/-- the code unit of four hexadecimal digits -/
def hexUnit? (a b c d : Char) : Option Nat := do
  return (((← Text.hexValue? a) * 16 + (← Text.hexValue? b)) * 16 + (← Text.hexValue? c)) * 16 + (← Text.hexValue? d)

/-- the character an escape letter stands for -/
def escapeLetter? (c : Char) : Option Char :=
  match c with
  | '"' => some '"'
  | '\\' => some '\\'
  | '/' => some '/'
  | 'b' => some '\x08'
  | 'f' => some '\x0c'
  | 'n' => some '\n'
  | 'r' => some '\r'
  | 't' => some '\t'
  | _ => none

def isHighUnit (n : Nat) : Bool := 0xd800 ≤ n && n ≤ 0xdbff

def isLowUnit (n : Nat) : Bool := 0xdc00 ≤ n && n ≤ 0xdfff

/-- the character of a code unit; a unit that is half a pair gives the replacement character -/
def unitChar (n : Nat) : Char :=
  if isHighUnit n || isLowUnit n then Char.ofNat 0xfffd else Char.ofNat n

/-- a unit after `\u`, joined with the low unit that may follow a high one -/
def readUnit? : List Char → Option (Char × List Char)
  | a :: b :: c :: d :: rest =>
    match hexUnit? a b c d with
    | none => none
    | some high =>
      match rest with
      | '\\' :: 'u' :: e :: f :: g :: h :: more =>
        match hexUnit? e f g h with
        | some low =>
          if isHighUnit high && isLowUnit low && !more.isEmpty then
            some (Char.ofNat (0x10000 + (high - 0xd800) * 0x400 + (low - 0xdc00)), more)
          else some (unitChar high, rest)
        | none => some (unitChar high, rest)
      | _ => some (unitChar high, rest)
  | _ => none

/-- the rest of a string after its opening quote, at which `start` characters were left -/
def readString (start : Nat) : Nat → List Char → List Char → Except Stop (String × List Char)
  | 0, _, _ => throw (.fault .unterminated start)
  | _ + 1, _, [] => throw (.fault .unterminated start)
  | fuel + 1, done, c :: rest =>
    if c == '"' then pure (String.ofList done.reverse, rest)
    else if c.toNat < 0x20 then throw (.fault .control (rest.length + 1))
    else if c == '\\' then
      match rest with
      | [] => throw (.fault .unterminated start)
      | 'u' :: more =>
        if more.length < 5 then throw (.fault .badUnicodeEscape (more.length + 1))
        else match readUnit? more with
          | some (d, after) => readString start fuel (d :: done) after
          | none => throw (.fault .badUnicodeEscape (more.length + 1))
      | e :: more =>
        match escapeLetter? e with
        | some d => readString start fuel (d :: done) more
        | none => throw (.fault .badEscape (more.length + 2))
    else readString start fuel (c :: done) rest

/-- the whole part of a number: a zero, or digits that start with another digit -/
def readWhole? : List Char → Option (List Char × List Char)
  | '0' :: rest => some (['0'], rest)
  | cs =>
    let (ds, rest) := spanDigits cs
    if ds.isEmpty then none else some (ds, rest)

/-- the digits after a point, if a point and a digit stand here -/
def readPart : List Char → List Char × List Char
  | '.' :: rest =>
    let (ds, more) := spanDigits rest
    if ds.isEmpty then ([], '.' :: rest) else (ds, more)
  | cs => ([], cs)

/-- an exponent, if a mark, an optional sign and a digit stand here -/
def readPower : List Char → Option Int × List Char
  | [] => (none, [])
  | c :: rest =>
    if c == 'e' || c == 'E' then
      let (negative, more) := splitSign rest
      let (ds, after) := spanDigits more
      if ds.isEmpty then (none, c :: rest)
      else (some (if negative then -(natOfDigits ds : Int) else natOfDigits ds), after)
    else (none, c :: rest)

/-- a number: an integer unless it has a point or an exponent -/
def readNumber (cs : List Char) : Except Stop (Value × List Char) :=
  let negative := cs.head? == some '-'
  match readWhole? (if negative then cs.tail else cs) with
  | none => throw (.fault .value cs.length)
  | some (whole, rest) =>
    let (part, rest) := readPart rest
    let (power, rest) := readPower rest
    if part.isEmpty && power.isNone then
      if maxIntDigits < whole.length then throw (.longInteger whole.length)
      else
        let n : Int := natOfDigits whole
        pure (.int (if negative then -n else n), rest)
    else
      pure (.real (Real64.ofDecimal negative (natOfDigits (whole ++ part)) (power.getD 0 - part.length)), rest)

/-- words that stand for values -/
def words : List (List Char × Value) :=
  [("null".toList, .null), ("true".toList, .bool true), ("false".toList, .bool false), ("NaN".toList, .real .nan),
    ("Infinity".toList, .real (.infinite false)), ("-Infinity".toList, .real (.infinite true))]

/-- the value of a word at the front, and what follows it -/
def readWord? (cs : List Char) : Option (Value × List Char) :=
  words.findSome? fun (w, v) => if w.isPrefixOf cs then some (v, cs.drop w.length) else none

mutual

/-- one value -/
def readValue : Nat → List Char → Except Stop (Value × List Char)
  | 0, cs => throw (.fault .value cs.length)
  | _ + 1, [] => throw (.fault .value 0)
  | fuel + 1, c :: rest =>
    if c == '"' then do
      let (s, more) ← readString (rest.length + 1) (rest.length + 1) [] rest
      pure (.text s, more)
    else if c == '\x7b' then
      match skipSpace rest with
      | '\x7d' :: more => pure (.map [], more)
      | more => readMembers fuel [] more
    else if c == '[' then
      match skipSpace rest with
      | ']' :: more => pure (.list [], more)
      | more => readItems fuel [] more
    else match readWord? (c :: rest) with
      | some found => pure found
      | none => readNumber (c :: rest)

/-- the items of a list up to its closing bracket; `done` holds those before, last first -/
def readItems : Nat → List Value → List Char → Except Stop (Value × List Char)
  | 0, _, cs => throw (.fault .value cs.length)
  | fuel + 1, done, cs => do
    let (v, rest) ← readValue fuel cs
    match skipSpace rest with
    | ']' :: more => pure (.list (v :: done).reverse, more)
    | ',' :: more => readItems fuel (v :: done) (skipSpace more)
    | more => throw (.fault .comma more.length)

/-- the members of an object up to its closing brace -/
def readMembers : Nat → Entries → List Char → Except Stop (Value × List Char)
  | 0, _, cs => throw (.fault .propertyName cs.length)
  | fuel + 1, done, cs =>
    match cs with
    | '"' :: rest => do
      let (key, rest) ← readString cs.length cs.length [] rest
      match skipSpace rest with
      | ':' :: rest =>
        let (v, rest) ← readValue fuel (skipSpace rest)
        let done := Entries.insert done (.text key) v
        match skipSpace rest with
        | '\x7d' :: more => pure (.map done, more)
        | ',' :: more => readMembers fuel done (skipSpace more)
        | more => throw (.fault .comma more.length)
      | more => throw (.fault .colon more.length)
    | _ => throw (.fault .propertyName cs.length)

end

/-- a whole text as one value -/
def readChars (cs : List Char) : Except Stop Value := do
  if cs.head? == some (Char.ofNat 0xfeff) then throw (.fault .byteOrderMark cs.length)
  let (v, rest) ← readValue (cs.length + 1) (skipSpace cs)
  match skipSpace rest with
  | [] => pure v
  | more => throw (.fault .extra more.length)

/-- line and column, both from one, of the place `pos` of a text -/
def lineColumn (cs : List Char) (pos : Nat) : Nat × Nat :=
  let before := cs.take pos
  (before.count '\n' + 1, (before.reverse.takeWhile (· != '\n')).length + 1)

/-- the message for a fault in the text `cs` -/
def Stop.message (cs : List Char) : Stop → String
  | .fault reason left =>
    let pos := cs.length - left
    let (line, column) := lineColumn cs pos
    reason.message ++ ": line " ++ natText line ++ " column " ++ natText column ++ " (char " ++ natText pos ++ ")"
  | .longInteger digits =>
    "Exceeds the limit (4300 digits) for integer string conversion: value has " ++ natText digits
      ++ " digits; use sys.set_int_max_str_digits() to increase the limit"

/-- a whole text as one value -/
def read (s : String) : Except Stop Value :=
  readChars s.toList

end ClassNaming.Json
