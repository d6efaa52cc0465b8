/-
The text of scalars in a settings file: plain, quoted, and in blocks.

Inside plain and quoted text a line end counts as a blank, and further empty lines count as line feeds. A block keeps
its lines, or folds them where both neighbours start with a visible character.
-/
import ClassNaming.Decimal.Reading
import ClassNaming.Text.Quoted
import ClassNaming.Yaml.Cursor

namespace ClassNaming.Yaml

/-- the breaks of a run of line ends: one alone is a blank, and a first line feed before others is dropped -/
def foldBreaks (first more : List Char) : List Char :=
  if first != ['\n'] then first ++ more
  else if more.isEmpty then [' '] else more

/-! ## Plain text -/

/-- the marks of flow collections -/
def flowMarks : List Char := [',', '[', ']', '\x7b', '\x7d']

/-- the marks that open a token wherever they stand first -/
def indicators : List Char := flowMarks ++ ['#', '&', '*', '!', '|', '>', '\'', '"', '%', '@', '\x60']

/-- a plain word ends at this character, followed by `next` -/
def endsPlain (flow : Bool) (c next : Char) : Bool :=
  isGap c || (c == ':' && (isGap next || (flow && flowMarks.contains next)))
    || (flow && (c == '?' || flowMarks.contains c))

/-- the word at the front of plain text -/
def plainWord (flow : Bool) : List Char → List Char
  | [] => []
  | c :: rest => if endsPlain flow c (rest.headD '\x00') then [] else c :: plainWord flow rest

/-- the empty lines that follow a line end, up to the first visible character; `none` if a document mark comes first -/
def plainBreaks : Nat → List Char → Cursor → Option (List Char) × Cursor
  | 0, breaks, c => (some breaks, c)
  | n + 1, breaks, c =>
    if c.peek == ' ' then plainBreaks n breaks c.next
    else if isBreak c.peek then
      let (b, c) := c.takeBreak
      if c.atSeparator then (none, c) else plainBreaks n (breaks ++ b) c
    else (some breaks, c)

/-- the space between two words of plain text, empty if the text ends here, and whether a line end was passed -/
def plainSpace (c : Cursor) : List Char × Bool × Cursor :=
  let (blanks, c) := c.takeWhile (· == ' ')
  if isBreak c.peek then
    let (first, c) := c.takeBreak
    if c.atSeparator then ([], true, c)
    else match plainBreaks c.rest.length [] c with
    | (some more, c) => (foldBreaks first more, true, c)
    | (none, c) => ([], true, c)
  else (blanks, false, c)

/-- plain text after `space`, on lines indented by `indent` at least; tells also whether a line end was passed last -/
def plainFrom (flow : Bool) (indent : Int) : Nat → (text space : List Char) → (broken : Bool) → Cursor →
    List Char × Bool × Cursor
  | 0, text, _, broken, c => (text, broken, c)
  | n + 1, text, space, broken, c =>
    let word := plainWord flow c.rest
    if c.peek == '#' || word.isEmpty then (text, broken, c)
    else
      let text := text ++ space ++ word
      let (space, broken, c) := plainSpace (c.skip word.length)
      if space.isEmpty || c.peek == '#' || (!flow && c.column < indent) then (text, broken, c)
      else plainFrom flow indent n text space broken c

/-- the plain text that starts here -/
def plainText (flow : Bool) (indent : Int) (c : Cursor) : List Char × Bool × Cursor :=
  plainFrom flow indent c.rest.length [] [] false c

/-! ## Quoted text -/

/-- the character that a letter after a backslash stands for -/
def escapeFor? : Char → Option Char
  | '0' => some '\x00'
  | 'a' => some '\x07'
  | 'b' => some '\x08'
  | 't' => some '\t'
  | '\t' => some '\t'
  | 'n' => some '\n'
  | 'v' => some '\x0b'
  | 'f' => some '\x0c'
  | 'r' => some '\r'
  | 'e' => some '\x1b'
  | ' ' => some ' '
  | '"' => some '"'
  | '\\' => some '\\'
  | '/' => some '/'
  | 'N' => some '\x85'
  | '_' => some '\xa0'
  | 'L' => some '\u2028'
  | 'P' => some '\u2029'
  | _ => none

/-- the number of hexadecimal digits that a letter after a backslash announces -/
def escapeDigits? : Char → Option Nat
  | 'x' => some 2
  | 'u' => some 4
  | 'U' => some 8
  | _ => none

/-- the number that the next `count` characters write in hexadecimal digits -/
def hexNumber? (c : Cursor) (count : Nat) : Option Nat := do
  let digits := c.rest.take count
  if digits.length < count then none
  digits.foldlM (fun n d => (Text.hexValue? d).map (16 * n + ·)) 0

/-- the character of a code point -/
def charOf (n : Nat) : Except Stop Char :=
  if 0x80000000 ≤ n then .error (.fault (.raised "OverflowError" "Python int too large to convert to C int"))
  else if 0x110000 ≤ n then .error (.fault (.badNumber "chr() arg not in range(0x110000)"))
  else .ok (Char.ofNat n)

/-- the empty lines inside quoted text; a document mark may not stand there -/
def quotedBreaks : Nat → List Char → Cursor → Except Stop (List Char × Cursor)
  | 0, breaks, c => .ok (breaks, c)
  | n + 1, breaks, c =>
    if c.atSeparator then .error .malformed
    else
      let c := c.skipWhile fun ch => ch == ' ' || ch == '\t'
      if isBreak c.peek then
        let (b, c) := c.takeBreak
        quotedBreaks n (breaks ++ b) c
      else .ok (breaks, c)

/-- a character that stands for itself inside quotes -/
def isQuotedPlain (c : Char) : Bool :=
  !(isGap c || c == '\'' || c == '"' || c == '\\')

/-- the text up to the closing quote, `double` telling which kind it is; one step takes a run of plain characters, an
escape, or the space between words -/
def quotedFrom (double : Bool) : Nat → List Char → Cursor → Except Stop (List Char × Cursor)
  | 0, _, _ => .error .malformed
  | n + 1, text, c =>
    let ch := c.peek
    if isQuotedPlain ch then
      let (word, c) := c.takeWhile isQuotedPlain
      quotedFrom double n (text ++ word) c
    else if ch == ' ' || ch == '\t' || isLineEnd ch then
      let (blanks, c) := c.takeWhile fun ch => ch == ' ' || ch == '\t'
      if c.rest.isEmpty then .error .malformed
      else if isBreak c.peek then do
        let (first, c) := c.takeBreak
        let (more, c) ← quotedBreaks (c.rest.length + 1) [] c
        quotedFrom double n (text ++ foldBreaks first more) c
      else quotedFrom double n (text ++ blanks) c
    else if !double && ch == '\'' then
      if c.look 1 == '\'' then quotedFrom double n (text ++ ['\'']) (c.skip 2) else .ok (text, c.next)
    else if double && ch == '"' then .ok (text, c.next)
    else if double && ch == '\\' then
      let c := c.next
      match escapeFor? c.peek with
      | some e => if c.rest.isEmpty then .error .malformed else quotedFrom double n (text ++ [e]) c.next
      | none =>
        match escapeDigits? c.peek with
        | some count =>
          match hexNumber? c.next count with
          | none => .error .malformed
          | some code => do
            let e ← charOf code
            quotedFrom double n (text ++ [e]) (c.skip (count + 1))
        | none =>
          if isBreak c.peek then do
            let (_, c) := c.takeBreak
            let (more, c) ← quotedBreaks (c.rest.length + 1) [] c
            quotedFrom double n (text ++ more) c
          else .error .malformed
    else quotedFrom double n (text ++ [ch]) c.next

/-- the text in the quotes that open here -/
def quotedText (c : Cursor) : Except Stop (List Char × Cursor) :=
  quotedFrom (c.peek == '"') (c.rest.length + 1) [] c.next

/-! ## Blocks -/

/-- what becomes of the line ends at the end of a block -/
inductive Chomp where
  | clip
  | strip
  | keep
deriving DecidableEq, Repr

def chompOf? : Char → Option Chomp
  | '+' => some .keep
  | '-' => some .strip
  | _ => none

/-- the digit of a stated indentation -/
def stepOf? (c : Char) : Except Stop (Option Nat) :=
  if isAsciiDigit c then
    if c == '0' then .error .malformed else .ok (some (c.toNat - '0'.toNat))
  else .ok none

/-- the header of a block: the two indicators in either order, and the rest of the line -/
def blockHeader (c : Cursor) : Except Stop (Chomp × Option Nat × Cursor) := do
  let (chomp, step, c) ← match chompOf? c.peek with
    | some chomp => do
      let step ← stepOf? c.next.peek
      pure (chomp, step, if step.isSome then c.skip 2 else c.next)
    | none => do
      let step ← stepOf? c.peek
      if step.isSome then
        match chompOf? c.next.peek with
        | some chomp => pure (chomp, step, c.skip 2)
        | none => pure (Chomp.clip, step, c.next)
      else pure (Chomp.clip, none, c)
  if !(c.peek == ' ' || isLineEnd c.peek) then throw .malformed
  return (chomp, step, ← c.skipLine)

/-- the empty lines before the text of a block, and the widest indentation met -/
def blockLead : Nat → List Char → Nat → Cursor → List Char × Nat × Cursor
  | 0, breaks, widest, c => (breaks, widest, c)
  | n + 1, breaks, widest, c =>
    if c.peek == ' ' then blockLead n breaks (max widest c.next.column) c.next
    else if isBreak c.peek then
      let (b, c) := c.takeBreak
      blockLead n (breaks ++ b) widest c
    else (breaks, widest, c)

/-- past blanks, up to the indentation -/
def skipIndent (indent : Nat) : Nat → Cursor → Cursor
  | 0, c => c
  | n + 1, c => if c.column < indent && c.peek == ' ' then skipIndent indent n c.next else c

/-- the empty lines inside a block -/
def blockBreaks (indent : Nat) : Nat → List Char → Cursor → List Char × Cursor
  | 0, breaks, c => (breaks, c)
  | n + 1, breaks, c =>
    let c := skipIndent indent indent c
    if isBreak c.peek then
      let (b, c) := c.takeBreak
      blockBreaks indent n (breaks ++ b) c
    else (breaks, c)

/-- the lines of a block, with the line end and the empty lines that follow the last one -/
def blockLines (folded : Bool) (indent : Nat) : Nat → (text breaks : List Char) → Cursor →
    List Char × List Char × List Char × Cursor
  | 0, text, breaks, c => (text, [], breaks, c)
  | n + 1, text, breaks, c =>
    let visible := !(c.peek == ' ' || c.peek == '\t')
    let (line, c) := c.takeWhile (!isLineEnd ·)
    let text := text ++ breaks ++ line
    let (lineEnd, c) := c.takeBreak
    let (breaks, c) := blockBreaks indent (c.rest.length + 1) [] c
    if c.column == indent && !c.rest.isEmpty then
      if folded && lineEnd == ['\n'] && visible && !(c.peek == ' ' || c.peek == '\t') then
        blockLines folded indent n (if breaks.isEmpty then text ++ [' '] else text) breaks c
      else blockLines folded indent n (text ++ lineEnd) breaks c
    else (text, lineEnd, breaks, c)

/-- the text of the block whose indicator stands here, in a collection indented by `outer` -/
def blockText (outer : Int) (c : Cursor) : Except Stop (List Char × Cursor) := do
  let folded := c.peek == '>'
  let (chomp, step, c) ← blockHeader c.next
  let least := (max (outer + 1) 1).toNat
  let (breaks, indent, c) := match step with
    | none =>
      let (breaks, widest, c) := blockLead (c.rest.length + 1) [] 0 c
      (breaks, max least widest, c)
    | some step =>
      let indent := least + step - 1
      let (breaks, c) := blockBreaks indent (c.rest.length + 1) [] c
      (breaks, indent, c)
  let (text, lineEnd, breaks, c) :=
    if c.column == indent && !c.rest.isEmpty then blockLines folded indent (c.rest.length + 1) [] breaks c
    else ([], [], breaks, c)
  return (text ++ (if chomp == .strip then [] else lineEnd) ++ (if chomp == .keep then breaks else []), c)

end ClassNaming.Yaml
