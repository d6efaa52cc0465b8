/-
Printing to a stream that cannot write every character.

`Encoding.safeText` never fails: it leaves a text alone if the stream can write it, else puts the plain form of each
mark in its place, and else a question mark for every character that is still out of reach.
-/
import ClassNaming.Fault
import ClassNaming.Text.Search

namespace ClassNaming

/-- the encodings a stream may have -/
inductive Encoding where
  | utf8
  | ascii
  | latin1
  | windows1252
deriving DecidableEq, Repr, Inhabited

/-- the signs of Windows-1252 beyond Latin-1 -/
def windowsSigns : List Nat :=
  [0x20ac, 0x201a, 0x0192, 0x201e, 0x2026, 0x2020, 0x2021, 0x02c6, 0x2030, 0x0160, 0x2039, 0x0152, 0x017d, 0x2018,
    0x2019, 0x201c, 0x201d, 0x2022, 0x2013, 0x2014, 0x02dc, 0x2122, 0x0161, 0x203a, 0x0153, 0x017e, 0x0178]

/-- a mark and its plain form, in the order they are replaced -/
def plainForms : List (String × String) :=
  [("✓", "[OK]"), ("✗", "[X]"), ("⚠", "[!]"), ("→", "->"), ("…", "..."), ("•", "*"), ("├─", "+-"), ("└─", "+-")]

namespace Encoding

/-- the encoding of a name -/
def ofName? : String → Option Encoding
  | "utf-8" => some .utf8
  | "ascii" => some .ascii
  | "latin-1" => some .latin1
  | "cp1252" => some .windows1252
  | _ => none

/-- the encoding has the character -/
def has (e : Encoding) (c : Char) : Bool :=
  let n := c.toNat
  match e with
  | .utf8 => true
  | .ascii => n < 0x80
  | .latin1 => n < 0x100
  | .windows1252 => n < 0x80 || (0xa0 ≤ n && n < 0x100) || windowsSigns.contains n

def writes (e : Encoding) (cs : List Char) : Bool :=
  cs.all e.has

/-- the name and the limit that a failure to encode states -/
def codec : Encoding → String × String
  | .utf8 => ("utf-8", "surrogates not allowed")
  | .ascii => ("ascii", "ordinal not in range(128)")
  | .latin1 => ("latin-1", "ordinal not in range(256)")
  | .windows1252 => ("charmap", "character maps to <undefined>")

/-- the first run of characters that the encoding does not have, as a failure -/
def check (e : Encoding) (cs : List Char) : Except Fault Unit :=
  let start := (cs.takeWhile e.has).length
  match (cs.dropWhile e.has).takeWhile (!e.has ·) with
  | [] => .ok ()
  | [c] =>
    let shown := "character '" ++ String.ofList (Text.numericEscape c.toNat) ++ "'"
    .error (.unencodable e.codec.1 shown (natText start) e.codec.2)
  | run => .error (.unencodable e.codec.1 "characters" (natText start ++ "-" ++ natText (start + run.length - 1)) e.codec.2)

/-- every mark replaced by its plain form -/
def plain (cs : List Char) : List Char :=
  plainForms.foldl (fun cs form => Text.replaceAll form.1.toList form.2.toList cs) cs

/-- the text a stream of the encoding takes in place of `cs` -/
def safeText (e : Encoding) (cs : List Char) : List Char :=
  if e.writes cs then cs
  else
    let cs := plain cs
    if e.writes cs then cs else cs.map fun c => if e.has c then c else '?'

/-- what reaches the stream; the ending is written as it is, or not at all -/
def safePrint (e : Encoding) (text ending : String) : Except Fault String := do
  e.check ending.toList
  return String.ofList (e.safeText text.toList) ++ ending

end Encoding

end ClassNaming
