/-
The tokens of a settings text.

Indentation becomes tokens that open and close block collections. A key is only known for one when its colon is found,
so the tokens that announce it are put in front of it afterwards: the lexer keeps its tokens in order and notes, by the
number of a token, what goes before it. A key has to end on the line it starts on, within 1024 characters.
-/
import ClassNaming.Text.Utf8
import ClassNaming.Yaml.ScalarText

namespace ClassNaming.Yaml

/-- a token -/
inductive Token where
  | version (major : Nat)
  | tagHandle (handle lead : List Char)
  | otherDirective
  | documentStart
  | documentEnd
  | blockSequence
  | blockMapping
  | blockEnd
  | flowSequence
  | flowSequenceEnd
  | flowMapping
  | flowMappingEnd
  | blockEntry
  | flowEntry
  | key
  | value
  | alias (name : List Char)
  | anchor (name : List Char)
  | tag (handle : Option (List Char)) (suffix : List Char)
  | scalar (text : List Char) (plain : Bool)
  | streamEnd
deriving DecidableEq, Repr, Inhabited

/-- where a key may have started: the number of its token, and its place -/
structure PossibleKey where
  token : Nat
  required : Bool
  index : Nat
  line : Nat
  column : Nat
deriving Repr

/-- the state of the lexer: the place, the tokens so far (last first) with their number, what goes before which token,
the depth of flow collections, whether a key may start here, the possible keys by depth, and the indentations -/
structure Lexer where
  cursor : Cursor
  tokens : List Token := []
  count : Nat := 0
  inserted : List (Nat × List Token) := []
  depth : Nat := 0
  keyAllowed : Bool := true
  keys : List (Nat × PossibleKey) := []
  indent : Int := -1
  outer : List Int := []
deriving Repr

namespace Lexer

def isFlow (s : Lexer) : Bool := s.depth != 0

def add (s : Lexer) (t : Token) : Lexer :=
  { s with tokens := t :: s.tokens, count := s.count + 1 }

/-- past blanks, comments and line ends -/
def skipToToken : Nat → Lexer → Lexer
  | 0, s => s
  | n + 1, s =>
    let c := (s.cursor.skipWhile (· == ' ')).skipComment
    let (b, c') := c.takeBreak
    if b.isEmpty then { s with cursor := c }
    else skipToToken n { s with cursor := c', keyAllowed := s.keyAllowed || !s.isFlow }

/-- drop the possible keys that cannot be keys any more; one that had to be a key is an error -/
def dropStaleKeys (s : Lexer) : Except Stop Lexer :=
  let isStale (k : PossibleKey) : Bool := k.line != s.cursor.line || 1024 < s.cursor.index - k.index
  if s.keys.any fun entry => isStale entry.2 && entry.2.required then .error .malformed
  else .ok { s with keys := s.keys.filter fun entry => !isStale entry.2 }

/-- drop the possible key of this depth -/
def dropKey (s : Lexer) : Except Stop Lexer :=
  match s.keys.lookup s.depth with
  | none => .ok s
  | some k => if k.required then .error .malformed else .ok { s with keys := s.keys.filter (·.1 != s.depth) }

/-- note that the next token may be a key -/
def noteKey (s : Lexer) : Except Stop Lexer := do
  if !s.keyAllowed then return s
  let required := !s.isFlow && s.indent == s.cursor.column
  let s ← s.dropKey
  return { s with keys := (s.depth, ⟨s.count, required, s.cursor.index, s.cursor.line, s.cursor.column⟩) :: s.keys }

/-- close the block collections that are indented more than a column; the fuel is the number of open ones -/
def closeBlocks (column : Int) : Nat → Lexer → Lexer
  | 0, s => s
  | n + 1, s =>
    if s.indent ≤ column then s
    else closeBlocks column n ({ s with indent := s.outer.headD (-1), outer := s.outer.tail }.add .blockEnd)

def unwind (s : Lexer) (column : Int) : Lexer :=
  if s.isFlow then s else closeBlocks column s.outer.length s

/-- indent to a column if that is deeper; tells whether it is -/
def deepen (s : Lexer) (column : Nat) : Bool × Lexer :=
  if s.indent < column then (true, { s with indent := column, outer := s.indent :: s.outer }) else (false, s)

/-- go on by `n` characters and add a token -/
def advance (s : Lexer) (n : Nat) (t : Token) : Lexer :=
  { s with cursor := s.cursor.skip n }.add t

/-- close all blocks before a mark of documents or the end -/
def closeAll (s : Lexer) : Except Stop Lexer := do
  let s ← (s.unwind (-1)).dropKey
  return { s with keyAllowed := false }

def openFlow (s : Lexer) (t : Token) : Except Stop Lexer := do
  let s ← s.noteKey
  return { s with depth := s.depth + 1, keyAllowed := true }.advance 1 t

def closeFlow (s : Lexer) (t : Token) : Except Stop Lexer := do
  if s.depth == 0 then throw .malformed
  let s ← s.dropKey
  return { s with depth := s.depth - 1, keyAllowed := false }.advance 1 t

def flowEntry (s : Lexer) : Except Stop Lexer := do
  let s ← s.dropKey
  return { s with keyAllowed := true }.advance 1 .flowEntry

/-- open a block collection here if this is deeper than the one around -/
def openBlock (s : Lexer) (t : Token) : Except Stop Lexer :=
  if s.isFlow then .ok s
  else if !s.keyAllowed then .error .malformed
  else match s.deepen s.cursor.column with
  | (true, s) => .ok (s.add t)
  | (false, s) => .ok s

def blockEntry (s : Lexer) : Except Stop Lexer := do
  let s ← (← s.openBlock .blockSequence).dropKey
  return { s with keyAllowed := true }.advance 1 .blockEntry

def explicitKey (s : Lexer) : Except Stop Lexer := do
  let s ← (← s.openBlock .blockMapping).dropKey
  return { s with keyAllowed := !s.isFlow }.advance 1 .key

/-- a colon: the possible key of this depth is one, or the value of a key that was announced starts -/
def valueMark (s : Lexer) : Except Stop Lexer :=
  match s.keys.lookup s.depth with
  | some k =>
    let s := { s with keys := s.keys.filter (·.1 != s.depth) }
    let (opens, s) := if s.isFlow then (false, s) else s.deepen k.column
    let before := if opens then [Token.blockMapping, .key] else [.key]
    .ok ({ s with inserted := (k.token, before) :: s.inserted, keyAllowed := false }.advance 1 .value)
  | none => do
    let s ← (← s.openBlock .blockMapping).dropKey
    return { s with keyAllowed := !s.isFlow }.advance 1 .value

/-- a character of a name -/
def isNameChar (c : Char) : Bool :=
  isAsciiDigit c || ('a' ≤ c && c ≤ 'z') || ('A' ≤ c && c ≤ 'Z') || c == '-' || c == '_'

/-- an anchor or an alias -/
def reference (s : Lexer) (token : List Char → Token) : Except Stop Lexer := do
  let s ← s.noteKey
  let (name, c) := s.cursor.next.takeWhile isNameChar
  if name.isEmpty || !(isGap c.peek || ['?', ':', ',', ']', '\x7d', '%', '@', '\x60'].contains c.peek) then throw .malformed
  return { s with cursor := c, keyAllowed := false }.add (token name)

/-- a character of a tag -/
def isTagChar (c : Char) : Bool :=
  isNameChar c || [';', '/', '?', ':', '@', '&', '=', '+', '$', ',', '.', '!', '~', '*', '\'', '(', ')', '[', ']',
    '%'].contains c

/-- bytes written as percent signs and two hexadecimal digits -/
def percentBytes : Nat → Cursor → Except Stop (List UInt8 × Cursor)
  | 0, c => .ok ([], c)
  | n + 1, c =>
    if c.peek != '%' then .ok ([], c)
    else match hexNumber? c.next 2 with
    | none => .error .malformed
    | some b => do
      let (more, c) ← percentBytes n (c.skip 3)
      return (UInt8.ofNat b :: more, c)

/-- the text of a tag -/
def tagText : Nat → Cursor → Except Stop (List Char × Cursor)
  | 0, c => .ok ([], c)
  | n + 1, c =>
    if c.peek == '%' then do
      let (bytes, c) ← percentBytes c.rest.length c
      match Utf8.decode bytes with
      | .error _ => throw .malformed
      | .ok cs =>
        let (more, c) ← tagText n c
        return (cs ++ more, c)
    else if isTagChar c.peek then do
      let (word, c) := c.takeWhile fun ch => isTagChar ch && ch != '%'
      let (more, c) ← tagText n c
      return (word ++ more, c)
    else .ok ([], c)

/-- the text of a tag, which may not be empty -/
def tagUri (c : Cursor) : Except Stop (List Char × Cursor) := do
  let (text, after) ← tagText (c.rest.length + 1) c
  if after.index == c.index then throw .malformed
  return (text, after)

/-- the handle of a tag: an exclamation mark, and a name with another one unless a blank follows -/
def tagHandle (c : Cursor) : Except Stop (List Char × Cursor) := do
  if c.peek != '!' then throw .malformed
  if c.look 1 == ' ' then return (['!'], c.next)
  let (name, c) := c.next.takeWhile isNameChar
  if c.peek != '!' then throw .malformed
  return ('!' :: name ++ ['!'], c.next)

def tag (s : Lexer) : Except Stop Lexer := do
  let s ← s.noteKey
  let c := s.cursor
  let ch := c.look 1
  let (handle, suffix, c) ← if ch == '<' then do
      let (suffix, c) ← tagUri (c.skip 2)
      if c.peek != '>' then throw .malformed
      pure (none, suffix, c.next)
    else if isGap ch then pure (none, ['!'], c.next)
    else do
      let word := c.next.rest.takeWhile fun ch => !(ch == ' ' || isLineEnd ch)
      let (handle, c) ← if word.contains '!' then tagHandle c else pure (['!'], c.next)
      let (suffix, c) ← tagUri c
      pure (some handle, suffix, c)
  if !(c.peek == ' ' || isLineEnd c.peek) then throw .malformed
  return { s with cursor := c, keyAllowed := false }.add (.tag handle suffix)

/-- the version number and the handles that a text states before a document -/
def directive (s : Lexer) : Except Stop Lexer := do
  let s ← s.closeAll
  let (name, c) := s.cursor.next.takeWhile isNameChar
  if name.isEmpty || !(c.peek == ' ' || isLineEnd c.peek) then throw .malformed
  let (token, c) ← if name == "YAML".toList then do
      let (major, c) := (c.skipWhile (· == ' ')).takeWhile isAsciiDigit
      if major.isEmpty || c.peek != '.' then throw .malformed
      let (minor, c) := c.next.takeWhile isAsciiDigit
      if minor.isEmpty || !(c.peek == ' ' || isLineEnd c.peek) then throw .malformed
      pure (Token.version (natOfDigits major), c)
    else if name == "TAG".toList then do
      let (handle, c) ← tagHandle (c.skipWhile (· == ' '))
      if c.peek != ' ' then throw .malformed
      let (lead, c) ← tagUri (c.skipWhile (· == ' '))
      if !(c.peek == ' ' || isLineEnd c.peek) then throw .malformed
      pure (Token.tagHandle handle lead, c)
    else pure (Token.otherDirective, c.skipWhile (!isLineEnd ·))
  return { s with cursor := ← c.skipLine }.add token

def quoted (s : Lexer) : Except Stop Lexer := do
  let s ← s.noteKey
  let (text, c) ← quotedText s.cursor
  return { s with cursor := c, keyAllowed := false }.add (.scalar text false)

def block (s : Lexer) : Except Stop Lexer := do
  let s ← s.dropKey
  let (text, c) ← blockText s.indent s.cursor
  return { s with cursor := c, keyAllowed := true }.add (.scalar text false)

def plain (s : Lexer) : Except Stop Lexer := do
  let s ← s.noteKey
  let (text, broken, c) := plainText s.isFlow (s.indent + 1) s.cursor
  return { s with cursor := c, keyAllowed := broken }.add (.scalar text true)

/-- plain text may start here -/
def startsPlain (s : Lexer) : Bool :=
  let ch := s.cursor.peek
  !(isGap ch || ['-', '?', ':'].contains ch || indicators.contains ch)
    || (!isGap (s.cursor.look 1) && (ch == '-' || (!s.isFlow && (ch == '?' || ch == ':'))))

/-- read the next token, the place being that of one -/
def token (s : Lexer) : Except Stop Lexer :=
  let c := s.cursor
  let gap := isGap (c.look 1)
  match c.peek with
  | '[' => s.openFlow .flowSequence
  | ']' => s.closeFlow .flowSequenceEnd
  | ',' => s.flowEntry
  | '*' => s.reference .alias
  | '&' => s.reference .anchor
  | '!' => s.tag
  | '\'' | '"' => s.quoted
  | ch =>
    if c.column == 0 && c.atSeparator then do
      return (← s.closeAll).advance 3 (if ch == '-' then .documentStart else .documentEnd)
    else if ch == '\x7b' then s.openFlow .flowMapping
    else if ch == '\x7d' then s.closeFlow .flowMappingEnd
    else if ch == '%' && c.column == 0 then s.directive
    else if ch == '-' && gap then s.blockEntry
    else if ch == '?' && (s.isFlow || gap) then s.explicitKey
    else if ch == ':' && (s.isFlow || gap) then s.valueMark
    else if (ch == '|' || ch == '>') && !s.isFlow then s.block
    else if s.startsPlain then s.plain
    else .error .malformed

/-- every token that announces a key is put before it -/
def withInserted (inserted : List (Nat × List Token)) : Nat → List Token → List Token
  | _, [] => []
  | i, t :: rest => (inserted.lookup i).getD [] ++ t :: withInserted inserted (i + 1) rest

/-- read all tokens; each takes at least one character -/
def run : Nat → Lexer → Except Stop (List Token)
  | 0, _ => .error .malformed
  | n + 1, s => do
    let s ← (skipToToken (s.cursor.rest.length + 1) s).dropStaleKeys
    let s := s.unwind s.cursor.column
    if s.cursor.rest.isEmpty then
      let s ← s.closeAll
      return withInserted s.inserted 0 (s.add .streamEnd).tokens.reverse
    else run n (← s.token)

end Lexer

/-- the tokens of a text -/
def tokens (cs : List Char) : Except Stop (List Token) :=
  if !cs.all isAllowed then .error .malformed
  else
    let cs := if cs.head? == some '\ufeff' then cs.tail else cs
    Lexer.run (cs.length + 1) { cursor := .start cs }

end ClassNaming.Yaml
