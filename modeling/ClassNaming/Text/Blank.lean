/-
White space, the one notion of it that class strings, selectors, settings and numbers share.

`isBlank` is a list of ranges rather than the ASCII class of the core library: it has the separators 0x1c-0x1f, the
no-break spaces and the wide spaces, and it leaves out the zero-width characters. `trim` drops blanks at both ends.
-/

namespace ClassNaming.Text

/-- the character is white space -/
def isBlank (c : Char) : Bool :=
  let n := c.toNat
  (9 ≤ n && n ≤ 13) || (28 ≤ n && n ≤ 32) || n == 0x85 || n == 0xa0 || n == 0x1680 || (0x2000 ≤ n && n ≤ 0x200a)
    || n == 0x2028 || n == 0x2029 || n == 0x202f || n == 0x205f || n == 0x3000

/-- drop the characters satisfying `p` at the end -/
def dropEndWhile (p : Char → Bool) (cs : List Char) : List Char :=
  (cs.reverse.dropWhile p).reverse

/-- drop the blanks at both ends -/
def trim (cs : List Char) : List Char :=
  dropEndWhile isBlank (cs.dropWhile isBlank)

/-- `trim` on a text -/
def trimText (s : String) : String :=
  String.ofList (trim s.toList)

end ClassNaming.Text
