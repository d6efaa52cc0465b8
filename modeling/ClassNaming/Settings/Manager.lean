/-
Loading, changing and keeping settings for one project.

A manager keeps the settings it has loaded. `Manager.set` changes one setting and writes all of them to the file of the
chosen scope. A change that the section's check refuses is dropped by forgetting the loaded settings; a change that
cannot be written stays in the loaded settings.
-/
import ClassNaming.Report.Symbols
import ClassNaming.Settings.Layer

namespace ClassNaming

/-- which of the two files a change is written to -/
inductive Scope where
  | project
  | user
deriving DecidableEq, Repr

/-- the scope of a word: any word but one means the user's file -/
def Scope.ofWord (word : String) : Scope :=
  if word == "project" then .project else .user

/-- the bytes that are written for settings -/
def Settings.document [Codec] (s : Settings) : List UInt8 := Utf8.encode (Codec.dump s.value)

/-- the settings of one project, as far as they are loaded -/
structure Manager where
  env : Environment
  userFile : Path
  projectFile : Path
  loaded : Option Settings := none
deriving Inhabited

namespace Manager

/-- the place of the settings below a directory -/
def fileBelow (dir : Path) : Path :=
  dir.append [".hcnc", "config.yaml"]

/-- a manager that has loaded nothing -/
def create (env : Environment) (home project : Path) : Manager :=
  { env, userFile := fileBelow home, projectFile := fileBelow project }

/-- the file of a scope -/
def file (m : Manager) : Scope → Path
  | .project => m.projectFile
  | .user => m.userFile

/-- the settings as they are in the environment and the files -/
def read [Codec] (m : Manager) (files : Tree) : Except Fault Settings × List LogEntry :=
  Settings.read m.env files [m.userFile, m.projectFile]

/-- the settings, read if they are not loaded yet -/
def load [Codec] (m : Manager) (files : Tree) : Except Fault Settings × List LogEntry × Manager :=
  match m.loaded with
  | some s => (.ok s, [], m)
  | none =>
    match m.read files with
    | (.ok s, ws) => (.ok s, ws, { m with loaded := some s })
    | (.error cause, ws) => (.error cause, ws, m)

/-! ## Changing a setting -/

/-- the settings that can be changed by name -/
inductive Setting where
  | strictBem
  | allowUnknown
  | customUtilities
  | symbols
  | format
  | excludeDirs
deriving DecidableEq, Repr

/-- the setting of a key: section and name with a dot between them, or why there is none -/
def settingOf (key : String) : Except String Setting :=
  match Text.splitText '.' key with
  | ["rules", "strict_bem"] => .ok .strictBem
  | ["rules", "allow_unknown"] => .ok .allowUnknown
  | ["rules", "custom_utilities"] => .ok .customUtilities
  | ["rules", name] =>
    .error ("Unknown rules setting: " ++ name ++ ". Valid: strict_bem, allow_unknown, custom_utilities")
  | ["display", "symbols"] => .ok .symbols
  | ["display", "format"] => .ok .format
  | ["display", name] => .error ("Unknown display setting: " ++ name ++ ". Valid: symbols, format")
  | ["scan", "exclude_dirs"] => .ok .excludeDirs
  | ["scan", name] => .error ("Unknown scan setting: " ++ name ++ ". Valid: exclude_dirs")
  | [part, _] => .error ("Unknown section: " ++ part ++ ". Valid: rules, display, scan")
  | _ => .error ("Invalid key format: " ++ key ++ ". Use 'section.setting' (e.g., 'rules.strict_bem')")

/-- a flag written as text -/
def flagText (key text : String) : Except String Bool :=
  match parseBool? (.text text) with
  | some b => .ok b
  | none => .error ("Invalid boolean for " ++ key ++ ": '" ++ text ++ "'. Use true or false")

/-- the settings with one of them changed, or why the text is none for it -/
def change (s : Settings) (setting : Setting) (key text : String) : Except String Settings :=
  match setting with
  | .strictBem => (flagText key text).map fun b => { s with strictBem := b }
  | .allowUnknown => (flagText key text).map fun b => { s with allowUnknown := b }
  | .customUtilities => .ok { s with customUtilities := (Text.listed text).map .text }
  | .symbols => .ok { s with symbols := .text text }
  | .format => .ok { s with format := .text text }
  | .excludeDirs => .ok { s with excludeDirs := Text.listed text }

/-- the setting of a key and the settings with it changed, or why the change is refused -/
def edit (s : Settings) (key text : String) : Except String (Setting × Settings) := do
  let setting ← settingOf key
  return (setting, ← change s setting key text)

/-- the problem with the section of a setting -/
def problemAt (s : Settings) : Setting → Except Fault (Option String)
  | .strictBem | .allowUnknown | .customUtilities => s.rulesProblem
  | .symbols | .format => .ok s.displayProblem
  | .excludeDirs => .ok s.scanProblem

/-- write the settings to a file, with the directories that lead to it -/
def write [Codec] (files : Tree) (p : Path) (s : Settings) : Except Fault Tree × Tree :=
  match files.makeDirs p.parent with
  | .error cause => (.error cause, files)
  | .ok made =>
    match made.writeBytes p s.document with
    | .error cause => (.error cause, made)
    | .ok written => (.ok written, written)

/-- what a change leaves behind -/
structure Change where
  /-- nothing, or why the change is refused -/
  result : Except Fault (Option String)
  warnings : List LogEntry
  manager : Manager
  files : Tree

/-- save the settings to the file of a scope -/
def save [Codec] (m : Manager) (files : Tree) (scope : Scope) (s : Settings) : Except Fault Unit × Manager × Tree :=
  match write files (m.file scope) s with
  | (.error cause, files) => (.error cause, m, files)
  | (.ok files, _) => (.ok (), { m with loaded := some s }, files)

/-- check the settings after a change, and save them if they are fine -/
def commit [Codec] (m : Manager) (files : Tree) (scope : Scope) (setting : Setting) (s : Settings)
    (ws : List LogEntry) : Change :=
  let m := { m with loaded := some s }
  match problemAt s setting with
  | .error cause => ⟨.error cause, ws, m, files⟩
  | .ok (some text) => ⟨.ok (some text), ws, { m with loaded := none }, files⟩
  | .ok none =>
    match m.save files scope s with
    | (.error cause, m, files) => ⟨.error cause, ws, m, files⟩
    | (.ok _, m, files) => ⟨.ok none, ws, m, files⟩

/-- change one setting in the file of a scope -/
def set [Codec] (m : Manager) (files : Tree) (key text : String) (scope : Scope) : Change :=
  match m.load files with
  | (.error cause, ws, m) => ⟨.error cause, ws, m, files⟩
  | (.ok s, ws, m) =>
    match edit s key text with
    | .error refused => ⟨.ok (some refused), ws, m, files⟩
    | .ok (setting, s) => m.commit files scope setting s ws

/-! ## Showing settings -/

/-- a value as the text of one setting -/
def settingText : Value → Except Fault (Option String)
  | .null => .ok none
  | .bool b => .ok (some (if b then "true" else "false"))
  | .list items => (Value.joinTexts "," items).map some
  | v => .ok (some v.shown)

/-- the text of a setting of loaded settings, none for a key that names none -/
def textOf (s : Settings) (key : String) : Except Fault (Option String) :=
  match settingOf key with
  | .error _ => .ok none
  | .ok .strictBem => settingText (.bool s.strictBem)
  | .ok .allowUnknown => settingText (.bool s.allowUnknown)
  | .ok .customUtilities => settingText (.list s.customUtilities)
  | .ok .symbols => settingText s.symbols
  | .ok .format => settingText s.format
  | .ok .excludeDirs => settingText (.texts s.excludeDirs)

/-- the text of a setting -/
def get [Codec] (m : Manager) (files : Tree) (key : String) :
    Except Fault (Option String) × List LogEntry × Manager :=
  match m.load files with
  | (.error cause, ws, m) => (.error cause, ws, m)
  | (.ok s, ws, m) => (textOf s key, ws, m)

/-- the settings as text for a console -/
def describe (m : Manager) (c : Console) (s : Settings) : Except Fault String :=
  s.describe (c.preferred s.symbols).bullet m.userFile.text m.projectFile.text

end Manager

end ClassNaming
