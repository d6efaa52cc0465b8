/-
Reports as text: a list of results, a summary of counts, or JSON.

A report carries its data as a value. Members whose names start with an underscore steer the layout: `_groups`,
`_metrics`, `_warnings` and `_status`. The JSON form leaves out every such member, at every depth.
-/
import ClassNaming.Json.Writer
import ClassNaming.Report.Hint
import ClassNaming.Report.Symbols
import ClassNaming.Value.Walk

namespace ClassNaming

/-- the data of a report and how it wants to be shown; an empty title or command stands for none -/
structure Report where
  data : Value
  shape : Value := .text "auto"
  title : String := ""
  emptyMessage : String := "No data to display."
  command : String := ""
  context : Value := .null
deriving Repr

/-- the forms of a report -/
inductive Format where
  | list
  | summary
  | json
deriving DecidableEq, Repr

namespace Format

/-- the names a form can be asked for by; `auto` leaves the choice to the data -/
def names : List String := ["auto", "list", "summary", "json"]

/-- the form of a name, which must be one of the three -/
def ofValue : Value → Except Fault Format
  | .text "list" => .ok .list
  | .text "summary" => .ok .summary
  | .text "json" => .ok .json
  | .list _ => .error (.unhashable "list")
  | .map _ => .error (.unhashable "dict")
  | .scalar (.foreign ⟨_, _, _, _, some type⟩) => .error (.unhashable type)
  | v => .error (.unknownFormat v.shown)

/-- lists, and mappings with items or groups, are shown as lists, all else as a summary -/
def ofData : Value → Format
  | .list _ => .list
  | .map entries =>
    if (Entries.fieldOrNull entries "items").isTruthy || (Entries.fieldOrNull entries "_groups").isTruthy then .list
    else .summary
  | _ => .summary

def word : Format → String
  | .list => "list"
  | .summary => "summary"
  | .json => "json"

end Format

/-- the first `n` characters, or all but the last `-n` if `n` is negative -/
def takeSigned (n : Int) (cs : List Char) : List Char :=
  if n < 0 then cs.take (cs.length + n).toNat else cs.take n.toNat

/-- cut a text to a length, the last of it the mark of omission; too short a length leaves no room for the mark -/
def truncate (mark : List Char) (length : Int) (cs : List Char) : List Char :=
  if cs.length ≤ length then cs
  else if length ≤ mark.length then takeSigned length cs
  else cs.take (length - mark.length).toNat ++ mark

/-- the marks and the width a report is laid out with -/
structure Frame where
  symbols : SymbolSet
  width : Int
deriving Repr

namespace Frame

/-- the frame of a stated width, or of the terminal's if that is zero or not stated -/
def ofWidth (symbols : SymbolSet) (env : Environment) : Option Int → Frame
  | some w => ⟨symbols, if w == 0 then env.columns else w⟩
  | none => ⟨symbols, env.columns⟩

/-- cut a text to a length, by default ten less than the width and at least twenty -/
def cut (f : Frame) (text : String) (length : Option Int) : String :=
  String.ofList (truncate f.symbols.ellipsis.toList (length.getD (max 20 (f.width - 10))) text.toList)

/-- one result, with its message under it -/
def resultLines (f : Frame) (item : Value) : Except Fault (List Value) := do
  let fields ← item.entries
  let stated := Entries.fieldOrNull fields "kind"
  let kind ← if stated.isTruthy then
      match stated with
      | .scalar (.kind k) => pure (some k)
      | .text word => match Kind.ofWord? word with
        | some k => pure (some k)
        | none => throw (.noKind stated.quoted)
      | _ => throw (.noKind stated.quoted)
    else pure none
  let token ← item.index "token"
  let valid ← item.index "valid"
  let line := Value.text ("  " ++ f.symbols.resultLine token.shown valid.isTruthy kind)
  match Entries.fieldOrNull fields "message" with
  | .text m => return if m.isEmpty then [line] else [line, .text ("    " ++ m)]
  | m => if m.isTruthy then throw (.notJoinable m.typeName) else return [line]

def resultsLines (f : Frame) : List Value → Except Fault (List Value)
  | [] => .ok []
  | item :: rest => do
    let lines ← f.resultLines item
    return lines ++ (← f.resultsLines rest)

/-- the groups, each under its name and closed by an empty line -/
def groupsLines (f : Frame) : List Value → Except Fault (List Value)
  | [] => .ok []
  | group :: rest => do
    let name ← group.index "name"
    let fields ← group.entries
    let results ← f.resultsLines (← ((Entries.field? fields "items").getD (.list [])).items)
    return name :: results ++ .text "" :: (← f.groupsLines rest)

def metricLines (data : Entries) : Except Fault (List Value) := do
  let metrics ← ((Entries.field? data "_metrics").getD (.map [])).entriesFor "items"
  return metrics.map fun m => .text (m.1.shown ++ ": " ++ m.2.shown)

def warningLine (f : Frame) (warning : Value) : Value :=
  .text (f.symbols.warn ++ " " ++ f.cut warning.shown (some (f.width - 4)))

def statusLine (f : Frame) (status : Value) : Except Fault Value := do
  let fields ← status.entries
  let mark := if (Entries.fieldOrNull fields "ok").isTruthy then f.symbols.pass else f.symbols.fail
  return .text (mark ++ " " ++ ((Entries.field? fields "message").getD (.text "")).shown)

def bullet (f : Frame) (item : Value) : Value :=
  .text ("  " ++ f.symbols.bullet ++ " " ++ f.cut item.shown (some (f.width - 4)))

def titleLines (r : Report) : List Value :=
  if r.title.isEmpty then [] else [.text r.title, .text ""]

/-- the body of a list, or nothing if there is nothing to list -/
def listBody? (f : Frame) (data : Value) : Except Fault (Option (List Value)) := do
  match data with
  | .map entries =>
    let groups := Entries.fieldOrNull entries "_groups"
    let items := Entries.fieldOrNull entries "items"
    if groups.isTruthy then return some (← f.groupsLines (← groups.items))
    else if items.isTruthy then return some ((← f.resultsLines (← items.items)) ++ [.text ""])
    else return none
  | .list items => return if items.isEmpty then none else some (items.map f.bullet ++ [.text ""])
  | _ => return none

/-- the counts, warnings and status that follow a list -/
def listTail (f : Frame) (data : Value) : Except Fault (List Value) := do
  match data with
  | .map entries =>
    let metrics ← metricLines entries
    let warnings := (← ((Entries.field? entries "_warnings").getD (.list [])).items).map f.warningLine
    let counts := metrics ++ warnings
    let status := Entries.fieldOrNull entries "_status"
    let last ← if status.isTruthy then (f.statusLine status).map ([·]) else pure []
    return (if counts.isEmpty then [] else counts ++ [.text ""]) ++ last
  | _ => return []

/-- a report as a list -/
def list (f : Frame) (r : Report) : Except Fault String := do
  match ← f.listBody? r.data with
  | none => return r.emptyMessage
  | some body =>
    let tail ← f.listTail r.data
    let text ← Value.joinTexts "\n" (titleLines r ++ body ++ tail)
    return String.ofList (Text.dropEndWhile (· == '\n') text.toList)

/-- a report as a summary -/
def summary (f : Frame) (r : Report) : Except Fault String := do
  if !r.data.isTruthy then return r.emptyMessage
  else match r.data with
  | .map entries =>
    let metrics ← metricLines entries
    let stated := (Entries.field? entries "_warnings").getD (.list [])
    let warnings ← if stated.isTruthy then do
        pure (.text "" :: (← stated.items).map f.warningLine)
      else pure []
    let status := Entries.fieldOrNull entries "_status"
    let last ← if status.isTruthy then do
        pure [.text "", ← f.statusLine status]
      else pure []
    Value.joinTexts "\n" (titleLines r ++ metrics ++ warnings ++ last)
  | data => return data.shown

end Frame

/-- the name of a member is one that steers the layout; the members of a report have texts for names, and a key that is
none is outside and left in -/
def isInternal : Scalar → Bool
  | .text s => s.toList.head? == some '_'
  | _ => false

mutual

/-- a value without the members that steer the layout, at every depth -/
def Value.cleaned : Value → Value
  | .list items => .list (cleanedItems items)
  | .map entries => .map (cleanedEntries entries)
  | v => v

def cleanedItems : List Value → List Value
  | [] => []
  | v :: rest => v.cleaned :: cleanedItems rest

def cleanedEntries : List (Scalar × Value) → List (Scalar × Value)
  | [] => []
  | (k, v) :: rest => if isInternal k then cleanedEntries rest else (k, v.cleaned) :: cleanedEntries rest

end

namespace Report

/-- the form a report is shown in when `format` is asked for -/
def format (r : Report) (asked : Value) : Except Fault Format :=
  match asked with
  | .text "auto" =>
    match r.shape with
    | .text "auto" => .ok (Format.ofData r.data)
    | shape => Format.ofValue shape
  | _ => Format.ofValue asked

/-- a report as text, with the hint after its command unless it is JSON -/
def render (r : Report) (f : Frame) (asked : Value) : Except Fault String := do
  match ← r.format asked with
  | .json => return Json.pretty r.data.cleaned
  | form =>
    let text ← match form with
      | .list => f.list r
      | _ => f.summary r
    if r.command.isEmpty then return text
    match ← hint? r.command r.context with
    | some hint => return text ++ "\n\n" ++ hint
    | none => return text

end Report

end ClassNaming
