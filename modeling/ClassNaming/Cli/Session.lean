/-
A session: the settings a command works with, and what is built from them once and kept.

The settings of a session and those its manager has loaded are the same ones until the manager forgets them: a change
made through the manager is seen at once, also one that its check refuses. Rules and marks that are already built stay
until `Session.reload`.
-/
import ClassNaming.Report.Render
import ClassNaming.Settings.Manager
import ClassNaming.Tasks.Orchestrator

namespace ClassNaming

/-- the settings in use for a project, with the rules, the marks and the workers made from them -/
structure Session where
  console : Console
  project : Path
  manager : Manager
  settings : Settings
  /-- the settings are the ones that the manager has loaded -/
  shared : Bool
  symbols : SymbolSet
  rules : Option Rules := none
  orchestrator : Option Orchestrator := none

namespace Session

/-- a session for a project, with the log of loading its settings -/
def start [Codec] (console : Console) (home project : Path) (files : Tree) : Except Fault Session × List LogEntry :=
  match (Manager.create console.env home project).load files with
  | (.error cause, ws, _) => (.error cause, ws)
  | (.ok settings, ws, manager) =>
    (.ok { console, project, manager, settings, shared := true, symbols := console.preferred settings.symbols }, ws)

/-- load the settings again and forget what was built from the old ones -/
def reload [Codec] (s : Session) (files : Tree) : Except Fault Unit × List LogEntry × Session :=
  match s.manager.load files with
  | (.error cause, ws, manager) => (.error cause, ws, { s with manager })
  | (.ok settings, ws, manager) =>
    (.ok (), ws, { s with manager, settings, shared := true, symbols := s.console.preferred settings.symbols,
                          rules := none })

/-- change one setting -/
def set [Codec] (s : Session) (files : Tree) (key text : String) (scope : Scope) : Manager.Change × Session :=
  let change := s.manager.set files key text scope
  let seen := s.shared && s.manager.loaded.isSome
  let settings := match Manager.edit s.settings key text with
    | .ok edited => if seen then edited.2 else s.settings
    | .error _ => s.settings
  (change, { s with manager := change.manager, settings, shared := seen && change.manager.loaded.isSome })

/-- the rules of the settings, built on first use -/
def naming (s : Session) : Except Fault Rules × Session :=
  match s.rules with
  | some rules => (.ok rules, s)
  | none =>
    match s.settings.naming with
    | .ok rules => (.ok rules, { s with rules := some rules })
    | .error cause => (.error cause, s)

/-- the rules of a command, with flags switched on by its arguments -/
def commandNaming (s : Session) (strict allowUnknown : Bool) : Except Fault Rules × Session :=
  match s.naming with
  | (.error cause, s) => (.error cause, s)
  | (.ok rules, s) =>
    let changes : Entries := (if strict then [(.text "strict_bem", .bool true)] else [])
      ++ (if allowUnknown then [(.text "allow_unknown", .bool true)] else [])
    (if changes.isEmpty then .ok rules else rules.changed changes, s)

/-- the form of a report: the one asked for, else the one of the settings -/
def format (s : Session) (requested : Option String) : Value :=
  match requested with
  | some word => if word.isEmpty then s.settings.format else .text word
  | none => s.settings.format

/-- the workers, made from the environment on first use -/
def workers (s : Session) : Except Fault Orchestrator × Session :=
  match s.orchestrator with
  | some o => (.ok o, s)
  | none =>
    match Orchestrator.create (.ofEnvironment s.console.env) with
    | .ok o => (.ok o, { s with orchestrator := some o })
    | .error cause => (.error cause, s)

/-- stop the workers, if there are any -/
def stop (s : Session) : Session :=
  { s with orchestrator := s.orchestrator.map Orchestrator.shutdown }

/-- a report as text -/
def render (s : Session) (r : Report) (format : Value) : Except Fault String :=
  r.render (Frame.ofWidth s.symbols s.console.env none) format

end Session

end ClassNaming
