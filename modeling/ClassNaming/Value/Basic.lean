/-
Values of settings files and reports: scalars, lists and mappings whose keys keep the order they were written in.

Keys of a mapping are scalars. `Entries.insert` follows the rule of such mappings: a key that is already there keeps its
place and takes the new value, any other key goes last.

A settings file can hold more than that: sets, bytes, tuples. Nothing is done with such an object but to compare it, to
show it, and to ask whether it counts as true, so it stands among the scalars with what those questions are answered by.
A list or mapping that holds itself is outside, and so are texts with lone surrogates.
-/
import ClassNaming.Decimal.Real64
import ClassNaming.Naming.Kind

namespace ClassNaming

/-- a calendar day -/
structure Date where
  year : Nat
  month : Nat
  day : Nat
deriving DecidableEq, Repr, Inhabited

/-- a time of day on a calendar day, with an offset from universal time in seconds if one is given -/
structure Moment where
  date : Date
  hour : Nat
  minute : Nat
  second : Nat
  micro : Nat
  offset : Option Int
deriving DecidableEq, Repr, Inhabited

/-- an object of another type, whose parts are not looked into -/
structure Foreign where
  type : String
  /-- what it is compared by -/
  form : String
  /-- the text it is shown as, where that does not follow from `form`: the members of a set have no order -/
  display : Option String
  truthy : Bool
  /-- the type for which it cannot be looked up in a table, if there is one -/
  unhashable : Option String
deriving DecidableEq, Repr, Inhabited

/-- the text that the object is shown as -/
def Foreign.text (x : Foreign) : String := x.display.getD x.form

/-- a value without parts -/
inductive Scalar where
  | null
  | bool (b : Bool)
  | int (n : Int)
  | real (x : Real64)
  | text (s : String)
  | date (d : Date)
  | moment (m : Moment)
  | kind (k : Kind)
  | path (p : String)
  | foreign (x : Foreign)
deriving DecidableEq, Repr, Inhabited

/-- a value; a record has a type name, the text it is shown as, and the fields it is written as -/
inductive Value where
  | scalar (s : Scalar)
  | list (items : List Value)
  | map (entries : List (Scalar × Value))
  | record (name shown : String) (entries : List (Scalar × Value))
deriving Repr, Inhabited

/-- the entries of a mapping, in order -/
abbrev Entries := List (Scalar × Value)

namespace Value

@[match_pattern] abbrev null : Value := .scalar .null
@[match_pattern] abbrev bool (b : Bool) : Value := .scalar (.bool b)
@[match_pattern] abbrev int (n : Int) : Value := .scalar (.int n)
@[match_pattern] abbrev real (x : Real64) : Value := .scalar (.real x)
@[match_pattern] abbrev text (s : String) : Value := .scalar (.text s)

/-- a mapping with text keys -/
def object (fields : List (String × Value)) : Value :=
  .map (fields.map fun (k, v) => (.text k, v))

/-- a list of texts -/
def texts (items : List String) : Value :=
  .list (items.map .text)

/-- a natural number as a value -/
def nat (n : Nat) : Value := .int n

/-- a text, or null for none -/
def textOrNull : Option String → Value
  | some s => .text s
  | none => .null

end Value

namespace Scalar

/-- the word for the scalar's type in error messages -/
def typeName : Scalar → String
  | .null => "NoneType"
  | .bool _ => "bool"
  | .int _ => "int"
  | .real _ => "float"
  | .text _ => "str"
  | .date _ => "datetime.date"
  | .moment _ => "datetime.datetime"
  | .kind _ => "ClassKind"
  | .path _ => "PurePosixPath"
  | .foreign x => x.type

/-- the scalar counts as true in a condition -/
def isTruthy : Scalar → Bool
  | .null => false
  | .bool b => b
  | .int n => n != 0
  | .real x => !x.isZero
  | .text s => !s.isEmpty
  | .foreign x => x.truthy
  | _ => true

/-- the form in which keys are compared: a truth value and a whole number stand for the integer of their size -/
def keyForm : Scalar → Scalar
  | .bool b => .int (if b then 1 else 0)
  | .real (.finite s m e) =>
    let (num, den) := Real64.ratio m e
    if num % den == 0 then .int (if s then -(num / den : Nat) else (num / den : Nat)) else .real (.finite s m e)
  | s => s

/-- two keys name the same entry -/
def sameKey (a b : Scalar) : Bool :=
  a.keyForm == b.keyForm

end Scalar

namespace Value

/-- the word for the value's type in error messages -/
def typeName : Value → String
  | .scalar s => s.typeName
  | .list _ => "list"
  | .map _ => "dict"
  | .record name _ _ => name

/-- the value counts as true in a condition -/
def isTruthy : Value → Bool
  | .scalar s => s.isTruthy
  | .list items => !items.isEmpty
  | .map entries => !entries.isEmpty
  | .record _ _ _ => true

end Value

namespace Entries

/-- the value under a key -/
def lookup? : Entries → Scalar → Option Value
  | [], _ => none
  | (k, v) :: rest, key => if k.sameKey key then some v else lookup? rest key

/-- the value under a text key -/
def field? (entries : Entries) (key : String) : Option Value :=
  lookup? entries (.text key)

/-- the value under a text key, null when there is none -/
def fieldOrNull (entries : Entries) (key : String) : Value :=
  (field? entries key).getD .null

/-- set a key: in its place if it is there, else last -/
def insert : Entries → Scalar → Value → Entries
  | [], key, value => [(key, value)]
  | (k, v) :: rest, key, value => if k.sameKey key then (k, value) :: rest else (k, v) :: insert rest key value

end Entries

end ClassNaming
