/-
Reading a pattern source.

The source is read by recursive descent: alternatives of sequences of items, an item being a character, a set, a place, a
group or one of these repeated. `Pattern.read` gives the pattern or the first fault.
-/
import ClassNaming.Decimal.Reading
import ClassNaming.Pattern.Lexeme
import ClassNaming.Text.Quoted

namespace ClassNaming.Pattern

/-- the repetition count that stands for no bound -/
def maxCount : Nat := 0xffffffff

/-! ## Characters -/

def isOctal (c : Char) : Bool := '0' ≤ c && c ≤ '7'

def isHex (c : Char) : Bool :=
  ('0' ≤ c && c ≤ '9') || ('a' ≤ c && c ≤ 'f') || ('A' ≤ c && c ≤ 'F')

def isAsciiLetter (c : Char) : Bool :=
  ('a' ≤ c && c ≤ 'z') || ('A' ≤ c && c ≤ 'Z')

/-- the value of a digit in any base up to sixteen -/
def digitValue (c : Char) : Nat :=
  if c ≤ '9' then c.toNat - 48 else if c ≤ 'F' then c.toNat - 55 else c.toNat - 87

/-- the value of digits in a base -/
def valueIn (base : Nat) (cs : List Char) : Nat :=
  cs.foldl (fun n c => base * n + digitValue c) 0

/-- the control character an escape letter stands for -/
def controlCode? (c : Char) : Option Nat :=
  match c with
  | 'a' => some 7
  | 'b' => some 8
  | 'f' => some 12
  | 'n' => some 10
  | 'r' => some 13
  | 't' => some 9
  | 'v' => some 11
  | '\\' => some 92
  | _ => none

/-- the named class an escape letter stands for -/
def categoryItem? (c : Char) : Option SetItem :=
  match c with
  | 'd' => some (.category .digit false)
  | 'D' => some (.category .digit true)
  | 's' => some (.category .space false)
  | 'S' => some (.category .space true)
  | 'w' => some (.category .word false)
  | 'W' => some (.category .word true)
  | _ => none

/-- the place an escape letter stands for -/
def placeOf? (flags : Flags) (c : Char) : Option Anchor :=
  match c with
  | 'A' => some .textStart
  | 'b' => some (.boundary false flags.wide)
  | 'B' => some (.boundary true flags.wide)
  | 'Z' => some .textEnd
  | _ => none

/-- the code point of an escape with exactly `count` hexadecimal digits -/
def hexEscape (letter : Char) (count : Nat) : Reader Nat := do
  let digits ← takeWhile isHex count
  let shown := '\\' :: letter :: digits
  if digits.length != count then failAt ("incomplete escape " ++ String.ofList shown) shown.length
  let code := valueIn 16 digits
  if 0x10ffff < code then failAt ("bad escape " ++ String.ofList shown) shown.length
  return code

/-- a character given by name: no name is known -/
def namedEscape : Reader Nat := do
  if !(← accept '\x7b') then failAt "missing \x7b" 0
  let name ← takeUntil '\x7d' "character name" (← fuelLeft) []
  failAt ("undefined character name " ++ Text.quoted (String.ofList name)) (name.length + 4)

/-- the code point of an escape that means the same inside and outside a set -/
def commonEscape? (letter : Char) : Reader (Option Nat) := do
  match letter with
  | 'x' => return some (← hexEscape letter 2)
  | 'u' => return some (← hexEscape letter 4)
  | 'U' => return some (← hexEscape letter 8)
  | 'N' => return some (← namedEscape)
  | _ => return none

/-- an octal escape with the given digits -/
def octalCode (digits : List Char) : Reader Nat := do
  let code := valueIn 8 digits
  if 0o377 < code then
    failAt ("octal escape value \\" ++ String.ofList digits ++ " outside of range 0-0o377") (digits.length + 1)
  return code

def badEscape {α : Type} (letter : Char) : Reader α :=
  failAt ("bad escape \\" ++ String.singleton letter) 2

/-- an escape inside a set -/
def setEscape (letter : Char) : Reader SetItem := do
  if let some code := controlCode? letter then return .one code
  if let some item := categoryItem? letter then return item
  if let some code ← commonEscape? letter then return .one code
  if isOctal letter then
    let digits ← takeWhile isOctal 2
    return .one (← octalCode (letter :: digits))
  if isAsciiDigit letter || isAsciiLetter letter then badEscape letter
  return .one letter.toNat

/-- the pattern of one set item -/
def ofItem (flags : Flags) (item : SetItem) : Pattern :=
  .char ⟨false, [item], flags.ignoreCase, flags.wide⟩

/-- the pattern of one code point -/
def ofCode (flags : Flags) (code : Nat) : Pattern :=
  ofItem flags (.one code)

/-- inside a look behind, only groups closed before it may be asked for -/
def checkBehind (number : Nat) : Reader Unit := do
  let st ← get
  match st.behindFrom with
  | none => pure ()
  | some bound =>
    if (st.widths.find? (·.1 == number)).isNone then failAt "cannot refer to an open group" 0
    if bound ≤ number then failAt "cannot refer to group defined in the same lookbehind subpattern" 0

/-- a reference to a group by number, written with `shown` characters -/
def groupAgain (flags : Flags) (number shown : Nat) : Reader Pattern := do
  let st ← get
  if (st.widths.find? (·.1 == number)).isNone then failAt "cannot refer to an open group" shown
  checkBehind number
  return .again number flags.ignoreCase flags.wide

/-- an escape that starts with a digit from 1 to 9: three octal digits, or the number of a group -/
def digitEscape (flags : Flags) (first : Char) : Reader Pattern := do
  let more ← takeWhile isAsciiDigit 1
  let third ← if isOctal first && more.all isOctal && !more.isEmpty then takeWhile isOctal 1 else pure []
  if !third.isEmpty then return ofCode flags (← octalCode (first :: more ++ third))
  let number := valueIn 10 (first :: more)
  if number < (← get).groups then groupAgain flags number (more.length + 2)
  else failAt ("invalid group reference " ++ natText number) (more.length + 1)

/-- an escape outside a set -/
def escape (flags : Flags) (letter : Char) : Reader Pattern := do
  if let some place := placeOf? flags letter then return .anchor place
  if let some item := categoryItem? letter then return ofItem flags item
  if let some code := controlCode? letter then return ofCode flags code
  if let some code ← commonEscape? letter then return ofCode flags code
  if letter == '0' then return ofCode flags (valueIn 8 (letter :: (← takeWhile isOctal 2)))
  if isAsciiDigit letter then digitEscape flags letter
  else if isAsciiLetter letter then badEscape letter
  else return ofCode flags letter.toNat

/-! ## Sets -/

/-- one member of a set: the item a lexeme stands for -/
def setMember (l : Lexeme) : Reader SetItem :=
  match l.escaped? with
  | some letter => setEscape letter
  | none => return .one ((l.chars.head?.map Char.toNat).getD 0)

/-- the rest of a set that opened at `opened`; `done` holds the items before, last first -/
def setItems (opened : Nat) : Nat → List SetItem → Reader (List SetItem)
  | 0, done => return done
  | fuel + 1, done => do
    match ← take with
    | none => failHere "unterminated character set" opened
    | some l =>
      if l.isChar ']' && !done.isEmpty then return done.reverse
      let item ← setMember l
      if ← accept '-' then
        match ← take with
        | none => failHere "unterminated character set" opened
        | some m =>
          if m.isChar ']' then return (.one 45 :: item :: done).reverse
          let last ← setMember m
          let bad {α : Type} : Reader α :=
            failAt ("bad character range " ++ String.ofList l.chars ++ "-" ++ String.ofList m.chars)
              (l.chars.length + 1 + m.chars.length)
          match item, last with
          | .one low, .one high => if high < low then bad else setItems opened fuel (.range low high :: done)
          | _, _ => bad
      else setItems opened fuel (item :: done)

/-- a set after its opening bracket at `opened` -/
def charSet (flags : Flags) (opened : Nat) : Reader Pattern := do
  let negated ← accept '^'
  let items ← setItems opened (← fuelLeft) []
  return .char ⟨negated, items, flags.ignoreCase, flags.wide⟩

/-! ## Repetition -/

/-- what a repetition mark may stand after -/
inductive Shape where
  | place
  | repetition
  | plain
deriving DecidableEq, Repr

/-- an item of a sequence -/
abbrev Item := Shape × Pattern

/-- the bounds of a count in braces after its opening brace; `none` if no count stands here -/
def readCount : Reader (Option (Nat × Option Nat)) := do
  if let some l ← peek then
    if l.isChar '\x7d' then return none
  let before ← get
  let here ← tell
  let low ← takeWhile isAsciiDigit (← fuelLeft)
  let comma ← accept ','
  let high ← if comma then takeWhile isAsciiDigit (← fuelLeft) else pure low
  if !(← accept '\x7d') then
    set before
    return none
  let least := valueIn 10 low
  let most := if high.isEmpty then none else some (valueIn 10 high)
  if maxCount ≤ least || maxCount ≤ most.getD 0 then throw .hugeCount
  if let some m := most then
    if m < least then failHere "min repeat greater than max repeat" here
  return some (least, most)

/-- the mark after a repetition that says which numbers of turns are tried first -/
def readGreed : Reader Greed := do
  if ← accept '?' then return .reluctant
  if ← accept '+' then return .possessive
  return .greedy

/-- repeat the last item, for a mark at `position` -/
def repeatLast (items : List Item) (position : Nat) (least : Nat) (most : Option Nat) : Reader (List Item) := do
  match items with
  | [] | (.place, _) :: _ => failHere "nothing to repeat" position
  | (.repetition, _) :: _ => failHere "multiple repeat" position
  | (.plain, p) :: rest =>
    let greed ← readGreed
    return (.repetition, .rep p least most greed) :: rest

/-! ## Flags -/
/-- a flag letter that is no flag: a letter is an unknown flag, anything else is where `missing` should stand -/
def badFlag {α : Type} (l : Lexeme) (missing : String) : Reader α :=
  let isWord := l.chars.all Text.isLetter
  failAt (if isWord then "unknown flag" else missing) l.chars.length

/-- the flag letters to switch on, from the letter `c`; with the character that ends them -/
def flagsOn : Nat → Flags → Char → Reader (Flags × Char)
  | 0, on, c => return (on, c)
  | fuel + 1, on, c => do
    if c == 'L' then failAt "bad inline flags: cannot use 'L' flag with a str pattern" 0
    let on := (on.withLetter? c).getD on
    if on.ascii && on.wide then failAt "bad inline flags: flags 'a', 'u' and 'L' are incompatible" 0
    match ← take with
    | none => failAt "missing -, : or )" 0
    | some l =>
      match l.chars with
      | [d] =>
        if d == ')' || d == '-' || d == ':' then return (on, d)
        else if isFlagLetter d then flagsOn fuel on d
        else badFlag l "missing -, : or )"
      | _ => badFlag l "missing -, : or )"

/-- the flag letters to switch off, from the letter `c`, up to the colon -/
def flagsOff : Nat → Flags → Char → Reader Flags
  | 0, off, _ => return off
  | fuel + 1, off, c => do
    if c == 'a' || c == 'u' || c == 'L' then
      failAt "bad inline flags: cannot turn off flags 'a', 'u' and 'L'" 0
    let off := (off.withLetter? c).getD off
    match ← take with
    | none => failAt "missing :" 0
    | some l =>
      match l.chars with
      | [d] =>
        if d == ':' then return off
        else if isFlagLetter d then flagsOff fuel off d
        else badFlag l "missing :"
      | _ => badFlag l "missing :"

/-- flags in a group, from the letter `c`: `none` if they are for the whole source, else those switched on and off -/
def readFlags (c : Char) : Reader (Option (Flags × Flags)) := do
  let fuel ← fuelLeft
  let (on, stop) ← if c == '-' then pure (({} : Flags), '-') else flagsOn fuel {} c
  if stop == ')' then
    modify fun st => { st with flags := st.flags.union on }
    return none
  if on.template then failAt "bad inline flags: cannot turn on global flag" 1
  let off ← if stop == '-' then do
      match ← take with
      | none => failAt "missing flag" 0
      | some l =>
        match l.chars with
        | [d] => if isFlagLetter d then flagsOff fuel {} d else badFlag l "missing flag"
        | _ => badFlag l "missing flag"
    else pure {}
  if off.template then failAt "bad inline flags: cannot turn off global flag" 1
  if on.minus off != on then failAt "bad inline flags: flag turned on and off" 1
  return some (on, off)

/-! ## Groups -/

/-- a letter or an underscore first, then letters, numbers and underscores -/
def isName (cs : List Char) : Bool :=
  match cs with
  | [] => false
  | c :: rest =>
    (Text.isLetter c || c == '_') && rest.all fun d => Text.isLetter d || Text.isNumeric d || d == '_'

def checkName (cs : List Char) : Reader Unit := do
  if !isName cs then failAt ("bad character in group name " ++ Text.quoted (String.ofList cs)) (cs.length + 1)

/-- the number of the group with a name -/
def named? (cs : List Char) : Reader (Option Nat) := do
  return ((← get).names.find? (·.1 == String.ofList cs)).map (·.2)

def unknownName {α : Type} (cs : List Char) : Reader α :=
  failAt ("unknown group name " ++ Text.quoted (String.ofList cs)) (cs.length + 1)

/-- open a group and give its number -/
def openGroup (name : Option (List Char)) : Reader Nat := do
  let st ← get
  let number := st.groups
  match name with
  | none => pure ()
  | some cs =>
    if let some old ← named? cs then
      failAt ("redefinition of group name " ++ Text.quoted (String.ofList cs) ++ " as group " ++ natText number
        ++ "; was group " ++ natText old) (cs.length + 1)
    modify fun st => { st with names := (String.ofList cs, number) :: st.names }
  modify fun st => { st with groups := number + 1 }
  return number

/-- close a group -/
def closeGroup (number : Nat) (body : Pattern) : Reader Unit :=
  modify fun st => { st with widths := (number, width st.widths body) :: st.widths }

/-- the group a condition asks for, by name or by number -/
def conditionGroup (cs : List Char) : Reader Nat := do
  if isName cs then
    match ← named? cs with
    | some n => return n
    | none => unknownName cs
  else
    match readInt? (String.ofList cs) with
    | none => failAt ("bad character in group name " ++ Text.quoted (String.ofList cs)) (cs.length + 1)
    | some n =>
      if n < 0 then failAt ("bad character in group name " ++ Text.quoted (String.ofList cs)) (cs.length + 1)
      if n == 0 then failAt "bad group number" (cs.length + 1)
      let place := (← tell) - cs.length - 1
      modify fun st => { st with asked := st.asked ++ [(n.toNat, place)] }
      return n.toNat

/-- skip a comment in brackets that opened at `opened` -/
def skipComment (opened : Nat) : Nat → Reader Unit
  | 0 => return
  | fuel + 1 => do
    match ← peek with
    | none => failHere "missing ), unterminated comment" opened
    | some l =>
      advance
      if l.isChar ')' then return else skipComment opened fuel

/-- skip the rest of a line -/
def skipLine : Nat → Reader Unit
  | 0 => return
  | fuel + 1 => do
    match ← take with
    | none => return
    | some l => if l.isChar '\n' then return else skipLine fuel

/-- what stands between `(` and the body of a group -/
inductive Opening where
  /-- a group with a body: its name if it is kept under one, whether it is kept, whether it is atomic, its flags -/
  | body (name : Option (List Char)) (kept locked : Bool) (flags : Flags)
  /-- a look ahead or behind -/
  | look (backward negated : Bool)
  /-- a choice by a group -/
  | condition (number : Nat)
  /-- an item with no body -/
  | item (p : Pattern)
  /-- nothing that stays in the pattern -/
  | nothing
  /-- flags for the whole source -/
  | global

/-- the extension after `(?P` -/
def readNamed (flags : Flags) : Reader Opening := do
  if ← accept '<' then
    let name ← takeUntil '>' "group name" (← fuelLeft) []
    checkName name
    return .body (some name) true false flags
  else if ← accept '=' then
    let name ← takeUntil ')' "group name" (← fuelLeft) []
    checkName name
    match ← named? name with
    | none => unknownName name
    | some number => return .item (← groupAgain flags number (name.length + 1))
  else
    match ← take with
    | none => failAt "unexpected end of pattern" 0
    | some l => failAt ("unknown extension ?P" ++ String.ofList l.chars) (l.chars.length + 2)

/-- what follows the bracket at `opened` -/
def readOpening (flags : Flags) (opened : Nat) : Reader Opening := do
  if !(← accept '?') then return .body none true false flags
  match ← take with
  | none => failAt "unexpected end of pattern" 0
  | some l =>
    match l.chars with
    | ['P'] => readNamed flags
    | [':'] => return .body none false false flags
    | ['#'] =>
      skipComment opened (← fuelLeft)
      return .nothing
    | ['='] => return .look false false
    | ['!'] => return .look false true
    | ['<'] =>
      match ← take with
      | none => failAt "unexpected end of pattern" 0
      | some m =>
        if m.isChar '=' then return .look true false
        else if m.isChar '!' then return .look true true
        else failAt ("unknown extension ?<" ++ String.ofList m.chars) (m.chars.length + 2)
    | ['('] =>
      let name ← takeUntil ')' "group name" (← fuelLeft) []
      let number ← conditionGroup name
      checkBehind number
      return .condition number
    | ['>'] => return .body none false true flags
    | [c] =>
      if isFlagLetter c || c == '-' then
        match ← readFlags c with
        | none => return .global
        | some (on, off) => return .body none false false (flags.within on off)
      else failAt ("unknown extension ?" ++ String.singleton c) 2
    | cs => failAt ("unknown extension ?" ++ String.ofList cs) (cs.length + 1)

/-- the closing bracket of a group that opened at `opened` -/
def closeBracket (opened : Nat) : Reader Unit := do
  if !(← accept ')') then failHere "missing ), unterminated subpattern" opened

/-! ## Items, sequences, alternatives -/

/-- white space that a verbose source may hold -/
def isVerboseSpace (c : Char) : Bool :=
  c == ' ' || (9 ≤ c.toNat && c.toNat ≤ 13)

/-- an item that is a single character of no special meaning, or a dot, or a place -/
def plainItem? (flags : Flags) (c : Char) : Option Item :=
  match c with
  | '.' => some (.plain, .char ⟨true, if flags.dotAll then [] else [.one 10], false, false⟩)
  | '^' => some (.place, .anchor (if flags.multiLine then .lineStart else .textStart))
  | '$' => some (.place, .anchor (if flags.multiLine then .lineEnd else .lastLineEnd))
  | '[' | '(' | '*' | '+' | '?' | '\x7b' => none
  | c => some (.plain, ofCode flags c.toNat)

/-- the count of a repetition mark; `none` for a brace that stands for itself -/
def markCount (c : Char) : Reader (Option (Nat × Option Nat)) :=
  match c with
  | '*' => return some (0, none)
  | '+' => return some (1, none)
  | '?' => return some (0, some 1)
  | _ => readCount

mutual

/-- alternatives up to a closing bracket or the end -/
def alternatives : Nat → Flags → Bool → Reader Pattern
  | 0, _, _ => return .empty
  | fuel + 1, flags, top => do
    let first ← sequenceOf fuel flags top []
    let more ← moreAlternatives fuel flags top
    return choice (first :: more)

/-- the alternatives after a bar, if one stands here -/
def moreAlternatives : Nat → Flags → Bool → Reader (List Pattern)
  | 0, _, _ => return []
  | fuel + 1, flags, top => do
    if ← accept '|' then
      let whole := (← get).flags
      let flags := if top then whole else flags
      let p ← sequenceOf fuel flags false []
      return p :: (← moreAlternatives fuel flags top)
    else return []

/-- items up to a bar, a closing bracket or the end; `done` holds those before, last first. Flags for the whole source
may stand only at the very start, where `first` holds and no item has been read -/
def sequenceOf : Nat → Flags → Bool → List Item → Reader Pattern
  | 0, _, _, _ => return .empty
  | fuel + 1, flags, first, done => do
    match ← peek with
    | none => return sequence (done.reverse.map (·.2))
    | some l =>
      if l.isChar '|' || l.isChar ')' then return sequence (done.reverse.map (·.2))
      advance
      match l.chars with
      | ['\\', letter] =>
        let p ← escape flags letter
        let shape := match p with
          | .anchor _ => Shape.place
          | _ => Shape.plain
        sequenceOf fuel flags first ((shape, p) :: done)
      | [c] =>
        if flags.verbose && isVerboseSpace c then sequenceOf fuel flags first done
        else if flags.verbose && c == '#' then
          skipLine (← fuelLeft)
          sequenceOf fuel flags first done
        else match plainItem? flags c with
          | some item => sequenceOf fuel flags first (item :: done)
          | none =>
            if c == '[' then
              let p ← charSet flags l.position
              sequenceOf fuel flags first ((.plain, p) :: done)
            else if c == '(' then
              match ← readOpening flags l.position with
              | .nothing => sequenceOf fuel flags first done
              | .item p => sequenceOf fuel flags first ((.plain, p) :: done)
              | .global =>
                if !first || !done.isEmpty then
                  failHere "global flags not at the start of the expression" l.position
                sequenceOf fuel (← get).flags first done
              | .look backward negated =>
                let p ← lookBody fuel flags l.position backward negated
                sequenceOf fuel flags first ((.plain, p) :: done)
              | .condition number =>
                let yes ← sequenceOf fuel flags false []
                let no ← if ← accept '|' then do
                    let p ← sequenceOf fuel flags false []
                    if let some m ← peek then
                      if m.isChar '|' then failAt "conditional backref with more than two branches" 0
                    pure p
                  else pure .empty
                closeBracket l.position
                sequenceOf fuel flags first ((.plain, .ifGroup number yes no) :: done)
              | .body name kept locked inner =>
                let number ← if kept then openGroup name else pure 0
                let p ← alternatives fuel inner false
                closeBracket l.position
                if kept then closeGroup number p
                let p := if kept then .group number p else if locked then .atomic p else p
                sequenceOf fuel flags first ((.plain, p) :: done)
            else
              match ← markCount c with
              | none => sequenceOf fuel flags first ((.plain, ofCode flags c.toNat) :: done)
              | some (least, most) =>
                let done ← repeatLast done l.position least most
                sequenceOf fuel flags first done
      | _ => sequenceOf fuel flags first done

/-- the body of a look ahead or behind that opened at `opened` -/
def lookBody : Nat → Flags → Nat → Bool → Bool → Reader Pattern
  | 0, _, _, _, _ => return .empty
  | fuel + 1, flags, opened, backward, negated => do
    if backward then
      let outer := (← get).behindFrom
      if outer.isNone then modify fun st => { st with behindFrom := some st.groups }
      let p ← alternatives fuel flags false
      if outer.isNone then modify fun st => { st with behindFrom := none }
      closeBracket opened
      let (lo, hi) := width (← get).widths p
      if lo != hi then modify fun st => { st with looseBehind := true }
      return .behind negated lo p
    else
      let p ← alternatives fuel flags false
      closeBracket opened
      return .ahead negated p

end

/-- a whole source -/
def source : Reader Pattern := do
  checkNext
  let fuel := 4 * ((← get).left.length + 2)
  let p ← alternatives fuel (← get).flags true
  let st ← get
  if st.flags.ascii && st.flags.wide then throw .flagConflict
  if !st.left.isEmpty then failAt "unbalanced parenthesis" 0
  match st.asked.find? fun (n, _) => st.groups ≤ n with
  | some (n, place) => failHere ("invalid group reference " ++ natText n) place
  | none => pure ()
  if st.flags.template then
    if let some greed := outerGreed? p then
      throw (.whole ("internal: unsupported template operator " ++ greed.operator))
  if st.looseBehind then throw (.whole "look-behind requires fixed-width pattern")
  return p

/-- read the characters of a source, with named classes over ASCII -/
def readChars (cs : List Char) : Except PatternError Pattern :=
  let start : ReaderState :=
    ⟨lexemes 0 cs, cs.length, { ascii := true }, 1, [], [], none, [], false⟩
  (source.run start).map (·.1)

/-- read a source -/
def read (s : String) : Except PatternError Pattern :=
  readChars s.toList

end ClassNaming.Pattern
