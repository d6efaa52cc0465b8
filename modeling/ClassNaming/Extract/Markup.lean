/-
The class tokens of markup and of plain HTML.

Markup has quoted `class=` and `className=` attributes and template literals in braces; interpolations in a literal are
replaced by a blank. The tokens of quoted attributes come first. HTML has quoted `class=` attributes only.
-/
import ClassNaming.Extract.Selector
import ClassNaming.Extract.Words

namespace ClassNaming.Extract

/-- what follows the text `lead`, if the text starts with it -/
def after? (lead cs : List Char) : Option (List Char) :=
  if lead.isPrefixOf cs then some (cs.drop lead.length) else none

/-- what follows an attribute name and its equals sign; names are tried in order -/
def afterName? (names : List String) (cs : List Char) : Option (List Char) :=
  names.findSome? fun name => after? (name.toList ++ ['=']) cs

def isQuote (c : Char) : Bool := c == '"' || c == '\''

/-- a quoted value that is not empty, and what follows its closing quote; any two quotes pair up -/
def quotedValue? : List Char → Option (List Char × List Char)
  | [] => none
  | c :: rest =>
    if !isQuote c then none
    else match rest.takeWhile (!isQuote ·), rest.dropWhile (!isQuote ·) with
      | [], _ => none
      | _, [] => none
      | value, _ :: more => some (value, more)

/-- a template literal in braces that is not empty, and what follows the closing brace -/
def templateValue? : List Char → Option (List Char × List Char)
  | '\x7b' :: '\x60' :: rest =>
    match rest.takeWhile (· != '\x60'), rest.dropWhile (· != '\x60') with
    | [], _ => none
    | value, '\x60' :: '\x7d' :: more => some (value, more)
    | _, _ => none
  | _ => none

/-- the values of attributes, from the left, `fuel` characters at most; the search goes on behind each value -/
def attributeValues (names : List String) (value? : List Char → Option (List Char × List Char)) :
    Nat → List Char → List (List Char)
  | 0, _ => []
  | _ + 1, [] => []
  | fuel + 1, c :: rest =>
    match (afterName? names (c :: rest)).bind value? with
    | some (value, more) => value :: attributeValues names value? fuel more
    | none => attributeValues names value? fuel rest

/-- the values of attributes of a whole text -/
def attributes (names : List String) (value? : List Char → Option (List Char × List Char)) (cs : List Char) :
    List (List Char) :=
  attributeValues names value? (cs.length + 1) cs

/-- what follows an interpolation that is not empty -/
def afterInterpolation? : List Char → Option (List Char)
  | '$' :: '\x7b' :: rest =>
    match rest.takeWhile (· != '\x7d'), rest.dropWhile (· != '\x7d') with
    | [], _ => none
    | _, [] => none
    | _, _ :: more => some more
  | _ => none

/-- a literal with each interpolation replaced by a blank, `fuel` characters at most -/
def staticText : Nat → List Char → List Char
  | 0, _ => []
  | _ + 1, [] => []
  | fuel + 1, c :: rest =>
    match afterInterpolation? (c :: rest) with
    | some more => ' ' :: staticText fuel more
    | none => c :: staticText fuel rest

/-- the tokens of a template literal -/
def literalWords (cs : List Char) : List (List Char) :=
  words (staticText (cs.length + 1) cs)

/-- the tokens of markup -/
def markupWords (cs : List Char) : List (List Char) :=
  (attributes [ "className", "class"] quotedValue? cs).flatMap words
    ++ (attributes [ "className", "class"] templateValue? cs).flatMap literalWords

/-- the tokens of HTML -/
def htmlWords (cs : List Char) : List (List Char) :=
  (attributes [ "class"] quotedValue? cs).flatMap words

/-- the tokens of markup -/
def markup (s : String) : List String :=
  (markupWords s.toList).map String.ofList

/-- the tokens of HTML -/
def html (s : String) : List String :=
  (htmlWords s.toList).map String.ofList

/-- drop repeated tokens, keeping the first of each -/
def unique : List String → List String
  | [] => []
  | t :: rest => t :: (unique rest).filter (· != t)

end ClassNaming.Extract
