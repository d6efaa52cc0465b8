/-
Registering the lint plugins in a project's linter configuration.

`Lint.setUp` writes a fresh configuration where there is none, and else appends the plugins that are not listed yet. A
file that lists them all is not written at all, so a second run changes nothing.
-/
import ClassNaming.Files.Tree
import ClassNaming.Json.Reader
import ClassNaming.Json.Writer
import ClassNaming.Log

namespace ClassNaming.Lint

/-- the name of the configuration file -/
def fileName : String := "biome.json"

/-- the plugins of the naming convention -/
def plugins : List String :=
  ["./node_modules/@hikasami/naming/rules/hcnc-jsx.grit", "./node_modules/@hikasami/naming/rules/hcnc-css.grit"]

def schema : String := "https://biomejs.dev/schemas/1.9.4/schema.json"

/-- the configuration of a project that has none -/
def freshConfig (plugins : List String) : Value :=
  .object [
    ("$schema", .text schema),
    ("linter", .object [("enabled", .bool true), ("rules", .object [("recommended", .bool true)])]),
    ("plugins", .texts plugins)]

/-- what a setup did: plugins appended, all of them in a new file -/
structure Report where
  path : Path
  created : Bool
  added : Nat
deriving DecidableEq, Repr

def Report.changed (r : Report) : Bool :=
  r.created || 0 < r.added

/-- the value is this text -/
def isText (s : String) : Value → Bool
  | .text t => t == s
  | _ => false

/-- the plugins to append to a list, each of them once -/
def missing : List Value → List String → List String
  | _, [] => []
  | listed, p :: rest =>
    if listed.any (isText p) then missing listed rest else p :: missing (listed ++ [.text p]) rest

/-- the configuration that a file holds -/
def read (files : Tree) (p : Path) : Except Fault Entries :=
  match files.readText p with
  | .error cause => .error (.lint ("Error updating " ++ p.text ++ ": " ++ cause.message))
  | .ok cs =>
    match Json.readChars cs with
    | .error (.longInteger digits) => .error (.badNumber ((Json.Stop.longInteger digits).message cs))
    | .error stop => .error (.lint ("Error updating " ++ p.text ++ ": " ++ stop.message cs))
    | .ok (.map entries) => .ok entries
    | .ok _ => .error (.lint (p.text ++ " must contain a JSON object"))

/-- the plugins that a configuration lists -/
def listed (p : Path) (config : Entries) : Except Fault (List Value) :=
  match Entries.field? config "plugins" with
  | none => .ok []
  | some (.list items) => .ok items
  | some _ => .error (.lint ("\"plugins\" in " ++ p.text ++ " must be a list"))

/-- the text of a configuration file -/
def text (config : Value) : String :=
  Json.pretty config ++ "\n"

def entry (message : String) : LogEntry :=
  ⟨.debug, "hcnc.services.biome", message⟩

/-- write a fresh configuration -/
def create (files : Tree) (p : Path) (plugins : List String) : Except Fault (Report × List LogEntry × Tree) := do
  let files ← files.writeText p (text (freshConfig plugins))
  return (⟨p, true, plugins.length⟩, [entry ("Created " ++ p.text)], files)

/-- append the missing plugins to a configuration -/
def update (files : Tree) (p : Path) (plugins : List String) : Except Fault (Report × List LogEntry × Tree) := do
  let config ← read files p
  let old ← listed p config
  let new := missing old plugins
  if new.isEmpty then return (⟨p, false, 0⟩, [], files)
  let config := Entries.insert config (.text "plugins") (.list (old ++ new.map .text))
  let files ← files.writeText p (text (.map config))
  return (⟨p, false, new.length⟩, [entry ("Added " ++ natText new.length ++ " plugin(s) to " ++ p.text)], files)

/-- register plugins in the configuration of a directory: what was done, the log, and the files afterwards -/
def setUp (files : Tree) (dir : Path) (plugins : List String) : Except Fault (Report × List LogEntry × Tree) :=
  let p := dir.append [fileName]
  if files.has p then update files p plugins else create files p plugins

end ClassNaming.Lint
