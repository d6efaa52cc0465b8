/-
Text as bytes.

`decode` refuses at the first byte that no character can start or continue with, and says which bytes are to blame: the
start alone if the byte after it cannot follow, and as much of a character as is there if the end comes too early. A
second byte is checked against the range its start allows, so long forms and surrogates are refused there.
-/
import ClassNaming.Fault

namespace ClassNaming.Utf8

/-- the bytes of one character -/
def encodeChar (c : Char) : List UInt8 :=
  let n := c.toNat
  let tail (bits : Nat) : UInt8 := UInt8.ofNat (0x80 + bits % 64)
  if n < 0x80 then [UInt8.ofNat n]
  else if n < 0x800 then [UInt8.ofNat (0xc0 + n / 64), tail n]
  else if n < 0x10000 then [UInt8.ofNat (0xe0 + n / 4096), tail (n / 64), tail n]
  else [UInt8.ofNat (0xf0 + n / 262144), tail (n / 4096), tail (n / 64), tail n]

/-- the bytes of a text -/
def encode (cs : List Char) : List UInt8 :=
  cs.flatMap encodeChar

/-- what a start byte announces: the number of bytes that follow, the bits it gives, and the range of the second byte -/
structure Lead where
  more : Nat
  bits : Nat
  low : Nat
  high : Nat

/-- the announcement of a start byte that is not ASCII -/
def lead? (b : Nat) : Option Lead :=
  if 0xc2 ≤ b && b ≤ 0xdf then some ⟨1, b - 0xc0, 0x80, 0xbf⟩
  else if b == 0xe0 then some ⟨2, 0, 0xa0, 0xbf⟩
  else if b == 0xed then some ⟨2, 0xd, 0x80, 0x9f⟩
  else if 0xe1 ≤ b && b ≤ 0xef then some ⟨2, b - 0xe0, 0x80, 0xbf⟩
  else if b == 0xf0 then some ⟨3, 0, 0x90, 0xbf⟩
  else if b == 0xf4 then some ⟨3, 4, 0x80, 0x8f⟩
  else if 0xf1 ≤ b && b ≤ 0xf3 then some ⟨3, b - 0xf0, 0x80, 0xbf⟩
  else none

/-- read `more` further bytes of a character, the next of them between `low` and `high`; a failure tells how many
bytes could be taken -/
def follow : (more taken low high value : Nat) → List UInt8 → Except (Nat × ByteFault) (Nat × List UInt8)
  | 0, _, _, _, value, rest => .ok (value, rest)
  | _ + 1, taken, _, _, _, [] => .error (taken, .cutShort)
  | more + 1, taken, low, high, value, b :: rest =>
    if low ≤ b.toNat && b.toNat ≤ high then follow more (taken + 1) 0x80 0xbf (64 * value + b.toNat % 64) rest
    else .error (taken, .badContinuation)

/-- the text of bytes that start at a position; the fuel is the number of bytes -/
def decodeFrom : (fuel position : Nat) → List UInt8 → Except Fault (List Char)
  | _, _, [] => .ok []
  | 0, _, _ :: _ => .ok []
  | fuel + 1, position, b :: rest =>
    if b.toNat < 0x80 then (decodeFrom fuel (position + 1) rest).map (Char.ofNat b.toNat :: ·)
    else match lead? b.toNat with
    | none => .error (.undecodable b.toNat position position .badStart)
    | some lead =>
      match follow lead.more 1 lead.low lead.high lead.bits rest with
      | .error (taken, cause) => .error (.undecodable b.toNat position (position + taken - 1) cause)
      | .ok (value, rest) => (decodeFrom fuel (position + lead.more + 1) rest).map (Char.ofNat value :: ·)

/-- the text of bytes -/
def decode (bytes : List UInt8) : Except Fault (List Char) :=
  decodeFrom bytes.length 0 bytes

end ClassNaming.Utf8

namespace ClassNaming.Text

/-- every line end as a line feed: a carriage return counts as one, alone or before a line feed -/
def unifyLineEnds : List Char → List Char
  | [] => []
  | '\r' :: '\n' :: rest => '\n' :: unifyLineEnds rest
  | c :: rest => (if c == '\r' then '\n' else c) :: unifyLineEnds rest

end ClassNaming.Text
