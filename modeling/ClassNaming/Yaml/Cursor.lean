/-
A place in a settings text: what is left of it, and its line and column.

Lines end at a line feed, a carriage return, the next-line character and the two Unicode separators. The end of the
text reads as a null character, which no text may contain.
-/
import ClassNaming.Fault

namespace ClassNaming.Yaml

/-- why a text gives no value: it is not well formed, or a scalar in it cannot be had as what it claims to be -/
inductive Stop where
  | malformed
  | fault (cause : Fault)
deriving Repr

/-- the end of a line -/
def isBreak (c : Char) : Bool :=
  c == '\n' || c == '\r' || c == '\x85' || c == '\u2028' || c == '\u2029'

/-- the end of the text or of a line -/
def isLineEnd (c : Char) : Bool :=
  c == '\x00' || isBreak c

/-- what may follow an indicator -/
def isGap (c : Char) : Bool :=
  c == ' ' || c == '\t' || isLineEnd c

/-- a character that a settings text may contain -/
def isAllowed (c : Char) : Bool :=
  let n := c.toNat
  n == 9 || n == 10 || n == 13 || (0x20 ≤ n && n ≤ 0x7e) || n == 0x85 || (0xa0 ≤ n && n ≤ 0xfffd) || 0x10000 ≤ n

/-- a place in a text -/
structure Cursor where
  rest : List Char
  index : Nat
  line : Nat
  column : Nat
deriving Repr

namespace Cursor

def start (cs : List Char) : Cursor := ⟨cs, 0, 0, 0⟩

/-- the character `k` places on -/
def look (c : Cursor) (k : Nat) : Char :=
  (c.rest[k]?).getD '\x00'

/-- the next character -/
def peek (c : Cursor) : Char := c.look 0

/-- one character on; a byte order mark takes no column -/
def next (c : Cursor) : Cursor :=
  match c.rest with
  | [] => c
  | ch :: rest =>
    if isBreak ch && !(ch == '\r' && rest.head? == some '\n') then ⟨rest, c.index + 1, c.line + 1, 0⟩
    else if ch == '\ufeff' then ⟨rest, c.index + 1, c.line, c.column⟩
    else ⟨rest, c.index + 1, c.line, c.column + 1⟩

/-- several characters on -/
def skip (c : Cursor) : Nat → Cursor
  | 0 => c
  | n + 1 => c.next.skip n

/-- past the characters that satisfy `p`; the fuel is the number of characters left -/
def skipWhileFrom (p : Char → Bool) : Nat → Cursor → Cursor
  | 0, c => c
  | n + 1, c => if !c.rest.isEmpty && p c.peek then skipWhileFrom p n c.next else c

def skipWhile (c : Cursor) (p : Char → Bool) : Cursor :=
  skipWhileFrom p c.rest.length c

/-- the characters that satisfy `p`, and the place after them -/
def takeWhile (c : Cursor) (p : Char → Bool) : List Char × Cursor :=
  let taken := c.rest.takeWhile p
  (taken, c.skip taken.length)

/-- past a line end, as the line feed it counts as; a Unicode separator stays itself -/
def takeBreak (c : Cursor) : List Char × Cursor :=
  match c.rest with
  | '\r' :: '\n' :: _ => (['\n'], c.skip 2)
  | ch :: _ =>
    if ch == '\u2028' || ch == '\u2029' then ([ch], c.next)
    else if isBreak ch then (['\n'], c.next)
    else ([], c)
  | [] => ([], c)

/-- a mark between documents stands here -/
def atSeparator (c : Cursor) : Bool :=
  match c.rest with
  | '-' :: '-' :: '-' :: _ | '.' :: '.' :: '.' :: _ => isGap (c.look 3)
  | _ => false

/-- past a comment -/
def skipComment (c : Cursor) : Cursor :=
  if c.peek == '#' then c.skipWhile (!isLineEnd ·) else c

/-- past blanks and a comment to the end of the line, which must be there -/
def skipLine (c : Cursor) : Except Stop Cursor :=
  let c := (c.skipWhile (· == ' ')).skipComment
  if isLineEnd c.peek then .ok c.takeBreak.2 else .error .malformed

end Cursor

end ClassNaming.Yaml
