/-
The settings of a run: rules, display and scan.

`Settings.ofValue` reads them from a mapping: a flag or list of the wrong kind is left at its default with a warning,
while a section that is no mapping is a fault. `Settings.value` writes them back, all of them. `Settings.problem`
checks the sections in turn and gives the text of the first problem.
-/
import ClassNaming.Naming.Rules
import ClassNaming.Text.Search
import ClassNaming.Text.Split
import ClassNaming.Log

namespace ClassNaming

/-- the settings in effect; the display settings hold whatever was written for them -/
structure Settings where
  strictBem : Bool := false
  allowUnknown : Bool := false
  customUtilities : List Value := []
  symbols : Value := .text "auto"
  format : Value := .text "auto"
  excludeDirs : List String := []
deriving Inhabited

namespace Settings

/-- a warning about settings -/
def warning (message : String) : LogEntry :=
  ⟨.warning, "hcnc.config", message⟩

/-- the warning about something that is not what it should be -/
def ignoring (name : String) (value : Value) (expected : String) : LogEntry :=
  warning ("Ignoring " ++ name ++ "=" ++ value.quoted ++ " (expected " ++ expected ++ ")")

/-- the flag of a section -/
def flagOf (part : Entries) (key : String) : Bool × List LogEntry :=
  match Entries.fieldOrNull part key with
  | .null => (false, [])
  | v =>
    match parseBool? v with
    | some b => (b, [])
    | none => (false, [ignoring key v "true/false"])

/-- the list of a section; one text stands for a list of it -/
def listOf (part : Entries) (key : String) : List Value × List LogEntry :=
  match Entries.fieldOrNull part key with
  | .null => ([], [])
  | .text s => ([.text s], [])
  | .list items => (items, [])
  | v => ([], [ignoring key v "a list"])

/-- the entries of a section; one that is empty or not there has none -/
def sectionOf (data : Entries) (name : String) : Except Fault Entries :=
  ((Entries.fieldOrNull data name).orElse (.map [])).entries

/-- settings from the entries of their sections, with the warnings of reading them -/
def ofSections (rules display scan : Entries) : Settings × List LogEntry :=
  let strict := flagOf rules "strict_bem"
  let unknown := flagOf rules "allow_unknown"
  let utilities := listOf rules "custom_utilities"
  let dirs := listOf scan "exclude_dirs"
  ({ strictBem := strict.1, allowUnknown := unknown.1, customUtilities := utilities.1,
     symbols := (Entries.field? display "symbols").getD (.text "auto"),
     format := (Entries.field? display "format").getD (.text "auto"),
     excludeDirs := dirs.1.map Value.shown },
    strict.2 ++ unknown.2 ++ utilities.2 ++ dirs.2)

/-- settings from the entries of a mapping; the warnings about rules come even if a later section is a fault -/
def ofEntries (data : Entries) : Except Fault Settings × List LogEntry :=
  match sectionOf data "rules" with
  | .error cause => (.error cause, [])
  | .ok rules =>
    match sectionOf data "display", sectionOf data "scan" with
    | .ok display, .ok scan =>
      let read := ofSections rules display scan
      (.ok read.1, read.2)
    | .error cause, _ => (.error cause, (ofSections rules [] []).2)
    | _, .error cause => (.error cause, (ofSections rules [] []).2)

/-- settings from a value that should be a mapping -/
def ofValue (data : Value) : Except Fault Settings × List LogEntry :=
  match data.entries with
  | .error cause => (.error cause, [])
  | .ok entries => ofEntries entries

/-- the settings as a mapping of sections -/
def value (s : Settings) : Value :=
  .object [
    ("rules", .object [("strict_bem", .bool s.strictBem), ("allow_unknown", .bool s.allowUnknown),
      ("custom_utilities", .list s.customUtilities)]),
    ("display", .object [("symbols", s.symbols), ("format", s.format)]),
    ("scan", .object [("exclude_dirs", .texts s.excludeDirs)])]

/-- the rules of the settings -/
def naming (s : Settings) : Except Fault Rules :=
  Rules.ofParts (.list s.customUtilities) s.allowUnknown s.strictBem

/-! ## Checking -/

def symbolWords : List String := ["unicode", "ascii", "auto"]

def formatWords : List String := ["auto", "list", "summary", "json"]

/-- the value is one of the words -/
def isWord (words : List String) : Value → Bool
  | .text s => words.contains s
  | _ => false

/-- the problem with the rules: a utility that cannot be read -/
def rulesProblem (s : Settings) : Except Fault (Option String) :=
  match readUtilities 0 s.customUtilities with
  | .ok _ => .ok none
  | .error (.badUtility index source reason) => .ok (some (Fault.badUtility index source reason).message)
  | .error cause => .error cause

/-- the problem with the display settings -/
def displayProblem (s : Settings) : Option String :=
  if !isWord symbolWords s.symbols then
    some ("Unknown symbols setting '" ++ s.symbols.shown ++ "'. Valid: " ++ ", ".intercalate symbolWords)
  else if !isWord formatWords s.format then
    some ("Unknown format '" ++ s.format.shown ++ "'. Valid: " ++ ", ".intercalate formatWords)
  else none

/-- the problem with the scan settings: a directory that is given as a path -/
def scanProblem (s : Settings) : Option String :=
  (s.excludeDirs.find? fun name => name.toList.any fun c => c == '/' || c == '\\').map fun name =>
    "exclude_dirs entries are directory names, not paths: '" ++ name ++ "'"

/-- the first problem of the sections -/
def problem (s : Settings) : Except Fault (Option String) := do
  match ← s.rulesProblem with
  | some text => return some text
  | none => return s.displayProblem.or s.scanProblem

/-! ## Showing -/

/-- a list in one line -/
def inline (items : List Value) : Except Fault String :=
  if items.isEmpty then .ok "(none)" else Value.joinTexts ", " items

/-- the settings as text, with the places of the two files they come from -/
def describe (s : Settings) (bullet userFile projectFile : String) : Except Fault String := do
  let utilities ← inline s.customUtilities
  let dirs ← inline (s.excludeDirs.map .text)
  return "\n".intercalate [
    "Configuration:",
    "",
    "Rules:",
    "  Strict BEM: " ++ (Scalar.bool s.strictBem).shown,
    "  Allow unknown: " ++ (Scalar.bool s.allowUnknown).shown,
    "  Custom utilities: " ++ utilities,
    "",
    "Display:",
    "  Symbols: " ++ s.symbols.shown,
    "  Format: " ++ s.format.shown,
    "",
    "Scan:",
    "  Exclude dirs: " ++ dirs,
    "",
    "Config files:",
    "  " ++ bullet ++ " User: " ++ userFile,
    "  " ++ bullet ++ " Project: " ++ projectFile]

end Settings

end ClassNaming
