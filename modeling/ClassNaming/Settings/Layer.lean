/-
Where settings come from: the environment, the user's file and the project's file, each laid over the one before.

A file that cannot be opened or is not well formed counts as empty, with a warning, and so does one that holds no
mapping. Bytes that are no text are a fault, unless the text before them is found malformed first.
-/
import ClassNaming.Environment
import ClassNaming.Files.Tree
import ClassNaming.Settings.Basic
import ClassNaming.Settings.Codec
import ClassNaming.Settings.Merge

namespace ClassNaming.Settings

/-- a flag of the environment, as an entry if it is one -/
def envFlag (env : Environment) (key name : String) : Entries × List LogEntry :=
  match env.get? name with
  | none => ([], [])
  | some raw =>
    match parseBool? (.text raw) with
    | some b => ([(.text key, .bool b)], [])
    | none => ([], [ignoring name (.text raw) "true/false"])

/-- the rules that the environment states, and the warnings -/
def envRules (env : Environment) : Entries × List LogEntry :=
  let strict := envFlag env "strict_bem" "HCNC_STRICT_BEM"
  let unknown := envFlag env "allow_unknown" "HCNC_ALLOW_UNKNOWN"
  let stated := env.get "HCNC_CUSTOM_UTILITIES"
  let utilities : Entries :=
    if stated.isEmpty then [] else [(.text "custom_utilities", .texts (Text.listed stated))]
  (strict.1 ++ unknown.1 ++ utilities, strict.2 ++ unknown.2)

/-- the layer of the environment -/
def envLayer (env : Environment) : Entries × List LogEntry :=
  let rules := envRules env
  (if rules.1.isEmpty then [] else [(.text "rules", .map rules.1)], rules.2)

/-- the warning about a file that cannot be used -/
def malformed (p : Path) (reason : String) : LogEntry :=
  warning ("Ignoring malformed config " ++ p.text ++ ": " ++ reason)

section

variable [Codec]

/-- the layer that a text writes, read from `p` -/
def textLayer (p : Path) (cs : List Char) : Except Fault (Entries × List LogEntry) :=
  match Codec.load cs with
  | .error (.malformed reason) => .ok ([], [malformed p reason])
  | .error (.fault cause) => .error cause
  | .ok v =>
    match v.orElse (.map []) with
    | .map entries => .ok (entries, [])
    | _ => .ok ([], [warning ("Ignoring config " ++ p.text ++ ": top level must be a mapping")])

/-- the layer that bytes write, read from `p` -/
def bytesLayer (p : Path) (bytes : List UInt8) : Except Fault (Entries × List LogEntry) :=
  match Utf8.decode bytes with
  | .ok cs => textLayer p (Text.unifyLineEnds cs)
  | .error cause =>
    match Codec.early bytes with
    | some reason => .ok ([], [malformed p reason])
    | none => .error cause

/-- the layer of a file; one that is not there is empty -/
def fileLayer (files : Tree) (p : Path) : Except Fault (Entries × List LogEntry) :=
  if files.has p then
    match files.readBytes p with
    | .error cause => .ok ([], [malformed p cause.message])
    | .ok bytes => bytesLayer p bytes
  else .ok ([], [])

/-- all layers, later ones over earlier ones, with their warnings; the first file that is a fault ends the reading -/
def layers (env : Environment) (files : Tree) (paths : List Path) : Except Fault Entries × List LogEntry :=
  addLayers (envLayer env) paths
where
  addLayers (done : Entries × List LogEntry) : List Path → Except Fault Entries × List LogEntry
    | [] => (.ok done.1, done.2)
    | p :: rest =>
      match fileLayer files p with
      | .error cause => (.error cause, done.2)
      | .ok layer => addLayers (Entries.over done.1 layer.1, done.2 ++ layer.2) rest

/-- the settings of the environment and the files, with the warnings of reading them -/
def read (env : Environment) (files : Tree) (paths : List Path) : Except Fault Settings × List LogEntry :=
  match layers env files paths with
  | (.error cause, ws) => (.error cause, ws)
  | (.ok entries, ws) =>
    let s := ofEntries entries
    (s.1, ws ++ s.2)

end

end ClassNaming.Settings
