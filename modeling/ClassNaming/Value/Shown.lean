/-
The text of a value in messages and reports.

`Value.shown` is the plain form: a text stands for itself, a path and a kind by their words. `Value.quoted` is the form
inside a listing: texts are quoted, lists stand in square and mappings in curly brackets, with `, ` and `: ` between.
-/
import ClassNaming.Decimal.Layout
import ClassNaming.Text.Quoted
import ClassNaming.Value.Basic

namespace ClassNaming

/-- decimal digits padded with zeros to a width -/
def padded (width n : Nat) : String :=
  let ds := digitText n
  String.ofList (List.replicate (width - ds.length) '0' ++ ds)

/-- a day as year, month and day -/
def Date.text (d : Date) : String :=
  padded 4 d.year ++ "-" ++ padded 2 d.month ++ "-" ++ padded 2 d.day

/-- an offset from universal time as sign, hours and minutes, and seconds if there are any -/
def offsetText (seconds : Int) : String :=
  let n := seconds.natAbs
  let rest := if n % 60 == 0 then "" else ":" ++ padded 2 (n % 60)
  (if seconds < 0 then "-" else "+") ++ padded 2 (n / 3600) ++ ":" ++ padded 2 (n / 60 % 60) ++ rest

/-- a moment, its day and time apart by `gap` -/
def Moment.textWith (gap : String) (m : Moment) : String :=
  let time := padded 2 m.hour ++ ":" ++ padded 2 m.minute ++ ":" ++ padded 2 m.second
  let part := if m.micro == 0 then "" else "." ++ padded 6 m.micro
  m.date.text ++ gap ++ time ++ part ++ (match m.offset with | some o => offsetText o | none => "")

/-- the fields of an offset that is not zero, days first when it is negative -/
def offsetQuoted (seconds : Int) : String :=
  if seconds == 0 then "datetime.timezone.utc"
  else
    let days := Int.fdiv seconds 86400
    let rest := seconds - days * 86400
    let fields := (if days == 0 then [] else ["days=" ++ intText days])
      ++ (if rest == 0 then [] else ["seconds=" ++ intText rest])
    "datetime.timezone(datetime.timedelta(" ++ ", ".intercalate fields ++ "))"

/-- a moment as its constructor call, without a final second and fraction that are zero -/
def Moment.quoted (m : Moment) : String :=
  let last := if m.micro != 0 then [m.second, m.micro] else if m.second != 0 then [m.second] else []
  let fields := [m.date.year, m.date.month, m.date.day, m.hour, m.minute] ++ last
  let zone := match m.offset with
    | some o => [ "tzinfo=" ++ offsetQuoted o]
    | none => []
  "datetime.datetime(" ++ ", ".intercalate (fields.map natText ++ zone) ++ ")"

/-- the quoted form of a scalar -/
def Scalar.quoted : Scalar → String
  | .null => "None"
  | .bool b => if b then "True" else "False"
  | .int n => intText n
  | .real x => x.text
  | .text s => Text.quoted s
  | .date d => "datetime.date(" ++ ", ".intercalate ([d.year, d.month, d.day].map natText) ++ ")"
  | .moment m => m.quoted
  | .kind k => k.quoted
  | .path p => "PurePosixPath(" ++ Text.quoted p ++ ")"
  | .foreign x => x.text

/-- the plain form of a scalar -/
def Scalar.shown : Scalar → String
  | .text s => s
  | .date d => d.text
  | .moment m => m.textWith " "
  | .kind k => k.word
  | .path p => p
  | s => s.quoted

namespace Value

mutual

/-- the form of a value inside a listing -/
def quoted : Value → String
  | .scalar s => s.quoted
  | .list items => "[" ++ ", ".intercalate (quotedItems items) ++ "]"
  | .map entries => "\x7b" ++ ", ".intercalate (quotedEntries entries) ++ "\x7d"
  | .record _ shown _ => shown

def quotedItems : List Value → List String
  | [] => []
  | v :: rest => quoted v :: quotedItems rest

def quotedEntries : List (Scalar × Value) → List String
  | [] => []
  | (k, v) :: rest => (k.quoted ++ ": " ++ quoted v) :: quotedEntries rest

end

/-- the plain form of a value -/
def shown : Value → String
  | .scalar s => s.shown
  | v => v.quoted

end Value

end ClassNaming
