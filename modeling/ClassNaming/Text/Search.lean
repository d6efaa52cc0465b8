/-
Looking for one text inside another, and replacing it.

`replaceAll` goes from left to right, and what it has put in is not searched again. `afterStart?` is the one test the
others are built on: what follows a given start.
-/

namespace ClassNaming.Text

/-- what follows `start` at the front of `cs` -/
def afterStart? : List Char → List Char → Option (List Char)
  | [], cs => some cs
  | _ :: _, [] => none
  | a :: start, c :: cs => if a == c then afterStart? start cs else none

def startsWith (start cs : List Char) : Bool :=
  (afterStart? start cs).isSome

/-- `part` stands somewhere in `cs` -/
def contains (part : List Char) : List Char → Bool
  | [] => part.isEmpty
  | c :: cs => startsWith part (c :: cs) || contains part cs

/-- replace each `old`, passing over `skip` characters that belong to one already replaced -/
def replaceFrom (old new : List Char) : Nat → List Char → List Char
  | _, [] => []
  | skip + 1, _ :: cs => replaceFrom old new skip cs
  | 0, c :: cs =>
    if startsWith old (c :: cs) then new ++ replaceFrom old new (old.length - 1) cs
    else c :: replaceFrom old new 0 cs

/-- replace each `old`, which is not empty, by `new` -/
def replaceAll (old new cs : List Char) : List Char :=
  replaceFrom old new 0 cs

end ClassNaming.Text
