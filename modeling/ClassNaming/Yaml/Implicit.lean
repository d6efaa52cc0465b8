/-
What plain text in a settings file stands for.

Text that reads as null, a truth value, a number or a time is one; all else is text. Numbers may have underscores
between their digits, a leading zero makes an integer octal, and colons separate digits of base sixty.
-/
import ClassNaming.Decimal.Reading
import ClassNaming.Text.Case
import ClassNaming.Text.Split
import ClassNaming.Value.Shown
import ClassNaming.Yaml.ScalarText

namespace ClassNaming.Yaml

/-- what a node claims to be -/
inductive Tag where
  | null
  | bool
  | int
  | real
  | timestamp
  | text
  | merge
  | defaultValue
  | sequence
  | mapping
  | other (name : String)
deriving DecidableEq, Repr, Inhabited

namespace Tag

/-- the namespace of the tags that every text may use -/
def base : String := "tag:yaml.org,2002:"

/-- the tag with a full name -/
def ofName (name : String) : Tag :=
  let known := [("null", Tag.null), ("bool", .bool), ("int", .int), ("float", .real), ("timestamp", .timestamp),
    ("str", .text), ("merge", .merge), ("value", .defaultValue), ("seq", .sequence), ("map", .mapping)]
  ((known.map fun entry => (base ++ entry.1, entry.2)).lookup name).getD (.other name)

end Tag

def nullWords : List String := ["", "~", "null", "Null", "NULL"]

def boolWords : List String :=
  ["yes", "Yes", "YES", "no", "No", "NO", "true", "True", "TRUE", "false", "False", "FALSE", "on", "On", "ON", "off",
    "Off", "OFF"]

/-- the characters after an optional sign -/
def unsigned : List Char → List Char
  | '+' :: rest | '-' :: rest => rest
  | cs => cs

def isDigitOr_ (c : Char) : Bool := isAsciiDigit c || c == '_'

/-- a run of digits and underscores that starts with a digit satisfying `first`, and what follows -/
def digitRun? (first : Char → Bool) : List Char → Option (List Char)
  | c :: rest => if isAsciiDigit c && first c then some (rest.dropWhile isDigitOr_) else none
  | [] => none

/-- one or more groups of a colon and a number below sixty, and what follows -/
def sixties : Nat → List Char → List Char
  | 0, cs => cs
  | n + 1, cs =>
    match cs with
    | ':' :: a :: rest =>
      if !isAsciiDigit a then cs
      else match rest with
      | b :: more => if a ≤ '5' && isAsciiDigit b then sixties n more else sixties n rest
      | [] => rest
    | _ => cs

/-- at least one such group at the front, and what follows all of them -/
def afterSixties? (cs : List Char) : Option (List Char) :=
  let rest := sixties cs.length cs
  if rest.length < cs.length then some rest else none

def isIntText (cs : List Char) : Bool :=
  match unsigned cs with
  | ['0'] => true
  | '0' :: 'b' :: rest => !rest.isEmpty && rest.all fun c => c == '0' || c == '1' || c == '_'
  | '0' :: 'x' :: rest => !rest.isEmpty && rest.all fun c => (Text.hexValue? c).isSome || c == '_'
  | '0' :: rest => !rest.isEmpty && rest.all fun c => ('0' ≤ c && c ≤ '7') || c == '_'
  | rest =>
    match digitRun? (fun _ => true) rest with
    | some [] => true
    | some more => afterSixties? more == some []
    | none => false

/-- an exponent with a sign, or nothing -/
def isExponent : List Char → Bool
  | [] => true
  | mark :: sign :: digits =>
    (mark == 'e' || mark == 'E') && (sign == '+' || sign == '-') && !digits.isEmpty && digits.all isAsciiDigit
  | _ => false

def isRealText (cs : List Char) : Bool :=
  let rest := unsigned cs
  if [".inf", ".Inf", ".INF"].any (·.toList == rest) || [".nan", ".NaN", ".NAN"].any (·.toList == cs) then true
  else match cs, rest with
  | '.' :: fraction, _ =>
    match digitRun? (fun _ => true) fraction with
    | some more => isExponent more
    | none => false
  | _, rest =>
    match digitRun? (fun _ => true) rest with
    | some ('.' :: fraction) => isExponent (fraction.dropWhile isDigitOr_)
    | some more =>
      match afterSixties? more with
      | some ('.' :: fraction) => (fraction.dropWhile isDigitOr_).isEmpty
      | _ => false
    | none => false

/-! ## Times -/

/-- a number of `least` to `most` digits, as many as there are, and what follows -/
def digits? (least most : Nat) (cs : List Char) : Option (Nat × List Char) :=
  let run := (cs.take most).takeWhile isAsciiDigit
  if run.length < least then none else some (natOfDigits run, cs.drop run.length)

def after? (c : Char) : List Char → Option (List Char)
  | d :: rest => if d == c then some rest else none
  | [] => none

def isSpace (c : Char) : Bool := c == ' ' || c == '\t'

/-- an offset from universal time in seconds, none if there is no zone -/
def zone? (cs : List Char) : Option (Option Int) :=
  match cs.dropWhile isSpace with
  | [] => if cs.isEmpty then some none else none
  | ['Z'] => some (some 0)
  | sign :: rest => do
    if !(sign == '+' || sign == '-') then none
    let (hours, rest) ← digits? 1 2 rest
    let minutes ← match rest with
      | [] => some 0
      | _ => do
        let (m, rest) ← digits? 2 2 (← after? ':' rest)
        if rest.isEmpty then some m else none
    let seconds : Int := hours * 3600 + minutes * 60
    some (some (if sign == '-' then -seconds else seconds))

/-- the fraction of a second in microseconds, and what follows -/
def fraction? : List Char → Option (Nat × List Char)
  | '.' :: rest =>
    let (run, more) := spanDigits rest
    some (natOfDigits ((run ++ List.replicate 6 '0').take 6), more)
  | cs => some (0, cs)

/-- a day, or a time on a day, as it is written; the numbers may be out of range -/
def time? (cs : List Char) : Option (Date × Option Moment) := do
  let (year, rest) ← digits? 4 4 cs
  let (month, rest) ← digits? 1 2 (← after? '-' rest)
  let (day, rest) ← digits? 1 2 (← after? '-' rest)
  let date : Date := ⟨year, month, day⟩
  match rest with
  | [] => some (date, none)
  | c :: more => do
    let rest ← if c == 'T' || c == 't' then some more
      else if isSpace c then some (more.dropWhile isSpace) else none
    let (hour, rest) ← digits? 1 2 rest
    let (minute, rest) ← digits? 2 2 (← after? ':' rest)
    let (second, rest) ← digits? 2 2 (← after? ':' rest)
    let (micro, rest) ← fraction? rest
    let offset ← zone? rest
    some (date, some ⟨date, hour, minute, second, micro, offset⟩)

/-- the text is a time; a day alone has two digits each for month and day -/
def isTimeText (cs : List Char) : Bool :=
  match time? cs with
  | some (_, none) => cs.length == 10
  | some (_, some _) => true
  | none => false

/-- what plain text claims to be -/
def implicitTag (cs : List Char) : Tag :=
  let s := String.ofList cs
  if boolWords.contains s then .bool
  else if isRealText cs then .real
  else if isIntText cs then .int
  else if s == "<<" then .merge
  else if nullWords.contains s then .null
  else if isTimeText cs then .timestamp
  else if s == "=" then .defaultValue
  else .text

/-! ## Values -/

def invalidNumber (what : String) (base : Nat) (cs : List Char) : Stop :=
  .fault (.badNumber ("invalid literal for " ++ what ++ " with base " ++ natText base ++ ": "
    ++ Text.quoted (String.ofList cs)))

/-- nothing is left of a number to read -/
def noDigits : Stop := .fault (.raised "IndexError" "string index out of range")

/-- a number in a base that is a power of two -/
def intInBase (base : Nat) (cs : List Char) : Except Stop Int :=
  let digit? (c : Char) : Option Nat := (Text.hexValue? c).filter (· < base)
  match cs.foldlM (fun n c => (digit? c).map (base * n + ·)) 0 with
  | some n => if cs.isEmpty then .error (invalidNumber "int()" base cs) else .ok n
  | none => .error (invalidNumber "int()" base cs)

/-- a number in base ten -/
def intInTen (cs : List Char) : Except Stop Int :=
  if maxIntDigits < (cs.filter isAsciiDigit).length && cs.all isAsciiDigit then
    .error (.fault (.badNumber ("Exceeds the limit (4300 digits) for integer string conversion: value has "
      ++ natText cs.length ++ " digits; use sys.set_int_max_str_digits() to increase the limit")))
  else match readInt? (String.ofList cs) with
  | some n => .ok n
  | none => .error (invalidNumber "int()" 10 cs)

/-- the parts between colons -/
def colonParts (cs : List Char) : List (List Char) :=
  Text.split ':' cs

/-- the integer that text claims to be -/
def intValue (cs : List Char) : Except Stop Int := do
  let cs := cs.filter (· != '_')
  let negative := cs.head? == some '-'
  let rest := unsigned cs
  let n ← match rest with
    | ['0'] => pure 0
    | '0' :: 'b' :: more => intInBase 2 more
    | '0' :: 'x' :: more => intInBase 16 more
    | '0' :: _ => intInBase 8 rest
    | [] => throw noDigits
    | _ =>
      if rest.contains ':' then
        (colonParts rest).foldlM (fun n part => do return 60 * n + (← intInTen part)) 0
      else intInTen rest
  return if negative then -n else n

/-- the number that text writes as a decimal fraction -/
def realPart (cs : List Char) : Except Stop Real64 :=
  match readReal? (String.ofList cs) with
  | some x => .ok x
  | none => .error (.fault (.badNumber ("could not convert string to float: " ++ Text.quoted (String.ofList cs))))

/-- digits of base sixty, last first, from a power of sixty on -/
def sumSixties (power : Int) (sum : Real64) : List (List Char) → Except Stop Real64
  | [] => .ok sum
  | part :: rest => do
    let x ← realPart part
    sumSixties (60 * power) (sum.add (x.mul (.ofInt power))) rest

/-- the floating point number that text claims to be -/
def realValue (cs : List Char) : Except Stop Real64 := do
  let cs := (Text.lower (String.ofList (cs.filter (· != '_')))).toList
  let negative := cs.head? == some '-'
  let rest := unsigned cs
  if cs.isEmpty then throw noDigits
  if rest == ".nan".toList then return .nan
  let x ← if rest == ".inf".toList then pure (Real64.infinite false)
    else if rest.contains ':' then sumSixties 1 (.ofInt 0) (colonParts rest).reverse
    else realPart rest
  return if negative then x.mul (.ofInt (-1)) else x

def isLeapYear (year : Nat) : Bool :=
  year % 4 == 0 && (year % 100 != 0 || year % 400 == 0)

def daysIn (year month : Nat) : Nat :=
  match month with
  | 2 => if isLeapYear year then 29 else 28
  | 4 | 6 | 9 | 11 => 30
  | _ => 31

/-- the day exists -/
def checkDate (d : Date) : Except Stop Unit :=
  let refuse (message : String) : Except Stop Unit := .error (.fault (.badNumber message))
  if d.year == 0 then refuse "year 0 is out of range"
  else if d.month == 0 || 12 < d.month then refuse "month must be in 1..12"
  else if d.day == 0 || daysIn d.year d.month < d.day then refuse "day is out of range for month"
  else .ok ()

/-- an interval of less than a day or more, as it is quoted: days, seconds -/
def intervalQuoted (seconds : Int) : String :=
  let days := Int.fdiv seconds 86400
  let rest := seconds - days * 86400
  let fields := (if days == 0 then [] else ["days=" ++ intText days])
    ++ (if rest == 0 then [] else ["seconds=" ++ intText rest])
  "datetime.timedelta(" ++ (if fields.isEmpty then "0" else ", ".intercalate fields) ++ ")"

/-- the time exists -/
def checkMoment (m : Moment) : Except Stop Unit := do
  let refuse (message : String) : Except Stop Unit := .error (.fault (.badNumber message))
  match m.offset with
  | some o =>
    if 86400 ≤ o.natAbs then
      refuse ("offset must be a timedelta strictly between -timedelta(hours=24) and timedelta(hours=24), not "
        ++ intervalQuoted o ++ ".")
  | none => pure ()
  checkDate m.date
  if 23 < m.hour then refuse "hour must be in 0..23"
  if 59 < m.minute then refuse "minute must be in 0..59"
  if 59 < m.second then refuse "second must be in 0..59"

/-- the value of scalar text under a tag -/
def scalarValue (tag : Tag) (cs : List Char) : Except Stop Scalar := do
  match tag with
  | .null => return .null
  | .text => return .text (String.ofList cs)
  | .bool =>
    let word := Text.lower (String.ofList cs)
    if ["yes", "true", "on"].contains word then return .bool true
    else if ["no", "false", "off"].contains word then return .bool false
    else throw (.fault (.noKey (Text.quoted word)))
  | .int => return .int (← intValue cs)
  | .real => return .real (← realValue cs)
  | .timestamp =>
    match time? cs with
    | none => throw (.fault (.noAttribute "NoneType" "groupdict"))
    | some (date, none) =>
      checkDate date
      return .date date
    | some (_, some moment) =>
      checkMoment moment
      return .moment moment
  | _ => throw .malformed

end ClassNaming.Yaml
