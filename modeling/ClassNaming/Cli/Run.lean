/-
Running a command line.

A run writes to its two streams and to the log, and ends with a code: 0 if all is well, 1 if a class name breaks the
rules or a command fails, 2 if the command line is refused. A fault that no command expects ends the run without a code.

Here the tool is put together: settings files are in YAML, and log records in JSON.
-/
import ClassNaming.Cli.Guide
import ClassNaming.Cli.Session
import ClassNaming.Cli.Tool
import ClassNaming.Json.Record
import ClassNaming.Lint.Setup
import ClassNaming.Report.Encoding
import ClassNaming.Report.Template
import ClassNaming.Scan.Scanner
import ClassNaming.Yaml.Codec

namespace ClassNaming.Cli

/-- something a run writes -/
inductive Output where
  | out (text : String)
  | err (text : String)
  | log (entry : LogEntry)
deriving Repr

/-- where a run takes place -/
structure Host where
  env : Environment
  /-- the name of the encoding that is printed to -/
  encodingName : String
  encoding : Encoding
  /-- the directory of the user's settings -/
  home : Path
  files : Tree

def Host.console (h : Host) : Console :=
  ⟨h.env, some h.encodingName⟩

/-- the width of help texts -/
def Host.helpWidth (h : Host) : Int :=
  h.env.columns - 2

/-- how a run ends -/
structure Ending where
  code : Except Fault Nat
  written : List Output := []
  files : Tree

namespace Ending

/-- the same ending after something else was written -/
def after (e : Ending) (before : List Output) : Ending :=
  { e with written := before ++ e.written }

end Ending

/-- the entries of a log that are shown -/
def logged (verbose : Bool) (entries : List LogEntry) : List Output :=
  (entries.filter fun e => verbose || e.isWarning).map .log

/-- print a text as far as the encoding goes, and end with a code -/
def Host.print (h : Host) (text : Except Fault String) (code : Nat) : Ending :=
  match text >>= fun t => h.encoding.safePrint t "\n" with
  | .ok printed => ⟨.ok code, [.out printed], h.files⟩
  | .error cause => ⟨.error cause, [], h.files⟩

/-- end with an error message -/
def Host.fail (h : Host) (message : String) : Ending :=
  ⟨.ok 1, [.err (message ++ "\n")], h.files⟩

/-- a utility that cannot be read is an error message, any other fault ends the run -/
def Host.failNaming (h : Host) : Fault → Ending
  | .badUtility index source reason => h.fail ("Error: " ++ (Fault.badUtility index source reason).message)
  | cause => ⟨.error cause, [], h.files⟩

/-! ## Judging class names -/

/-- the report on judged tokens -/
def judgedReport (source : String) (judged : List Judged) : Report :=
  let invalid := judged.filter (!·.verdict.valid)
  let passed := invalid.isEmpty
  { data := .object [
      ("input", .text source),
      ("items", .list (judged.map fun j => .map j.fields)),
      ("summary", .object [("total", .nat judged.length), ("invalid", .nat invalid.length)]),
      ("_status", .object [("ok", .bool passed),
        ("message", .text (if passed then "All classes are valid!"
          else "Some classes do not follow HCNC convention."))])]
    shape := .text "list"
    title := "Validating classes: " ++ source
    emptyMessage := "No classes found."
    command := "validate"
    context := .object [("passed", .bool passed), ("has_invalid", .bool (!passed))] }

/-- the tokens to judge and where they come from, or why a file cannot be read -/
def judgedInput (files : Tree) (rules : Rules) (a : Arguments) : Except String (String × List Judged) :=
  match (a.value? "scss").getD "" with
  | "" =>
    let source := " ".intercalate (a.operands.getD [])
    .ok (source, judgeAll rules (if a.has "selector" then Extract.selector source else Extract.classString source))
  | file =>
    match files.readText (.ofText file) with
    | .ok cs => .ok (file, judgeNested rules (String.ofList cs))
    | .error cause => .error ("Error reading " ++ file ++ ": " ++ cause.message)

def validate (h : Host) (s : Session) (a : Arguments) : Ending :=
  if (a.operands.getD []).isEmpty && ((a.value? "scss").getD "").isEmpty then
    ⟨.ok 2, [.err (validateCommand.refusal h.helpWidth "provide class names to validate or --scss FILE")], h.files⟩
  else match s.commandNaming (a.has "strict") (a.has "allow_unknown") with
    | (.error cause, _) => h.failNaming cause
    | (.ok rules, s) =>
      match judgedInput h.files rules a with
      | .error message => h.fail message
      | .ok (source, judged) =>
        h.print (s.render (judgedReport source judged) (s.format (a.value? "format")))
          (if judged.all (·.verdict.valid) then 0 else 1)

/-! ## Checking files -/

/-- the findings of one file as a group of results -/
def groupValue (path : String) (findings : List Finding) : Value :=
  .object [("name", .text path), ("items", .list (findings.map fun f => .object [
    ("token", .text f.token), ("valid", .bool false), ("kind", .null), ("message", .text f.message)]))]

/-- the report on a scan -/
def scanReport (r : ScanResult) : Report :=
  let groups := r.byFile.map fun g => groupValue g.1 g.2
  let layout : Entries := [
    (.text "_groups", .list groups),
    (.text "_metrics", .object [("Files checked", .nat r.files.length), ("Classes found", .nat r.totalClasses),
      ("Invalid classes", .nat r.invalidCount), ("Unreadable files", .nat r.unreadable.length)]),
    (.text "_warnings", .texts (r.unreadable.map fun f =>
      "Could not scan " ++ f.path ++ ": " ++ (Value.textOrNull f.error).shown)),
    (.text "_status", .object [("ok", .bool r.passed),
      ("message", .text (if r.passed then "All classes are valid!"
        else "Found " ++ natText r.invalidCount ++ " invalid class(es)"))])]
  { data := match r.value with
      | .map entries => .map (entries ++ layout)
      | v => v
    shape := .text (if groups.isEmpty then "summary" else "list")
    title := "Checking directory: " ++ r.root
    emptyMessage := "No invalid classes found."
    command := "check"
    context := .object [("passed", .bool r.passed), ("has_invalid", .bool (!r.passed)),
      ("has_unreadable", .bool (!r.unreadable.isEmpty))] }

def check (h : Host) (verbose : Bool) (s : Session) (a : Arguments) : Ending :=
  match s.commandNaming (a.has "strict") (a.has "allow_unknown") with
  | (.error cause, _) => h.failNaming cause
  | (.ok rules, s) =>
    match s.workers with
    | (.error cause, _) => ⟨.error cause, [], h.files⟩
    | (.ok workers, s) =>
      let scanner := Scanner.create rules .builtin (.adding s.settings.excludeDirs)
      match (scanner.scan workers h.files (.ofText ((a.operands.getD []).headD ""))).1 with
      | .error (.noRoot root) => h.fail ("Error: " ++ (Fault.noRoot root).message)
      | .error cause => ⟨.error cause, [], h.files⟩
      | .ok (result, entries) =>
        (h.print (s.render (scanReport result) (s.format (a.value? "format"))) (if result.passed then 0 else 1)).after
          (logged verbose entries)

/-! ## Setting up the linter -/

/-- what a setup did, in words -/
def setupStatus (r : Lint.Report) : String :=
  if r.created then "Created " ++ r.path.name ++ " with HCNC plugins"
  else if r.added != 0 then "Added " ++ natText r.added ++ " HCNC plugin(s) to " ++ r.path.name
  else "HCNC plugins already configured in " ++ r.path.name

def init (h : Host) (verbose : Bool) (s : Session) : Ending :=
  match Lint.setUp h.files s.project Lint.plugins with
  | .error (.lint message) => h.fail ("Error: " ++ message)
  | .error cause => ⟨.error cause, [], h.files⟩
  | .ok (r, entries, files) =>
    let listing := "\n".intercalate (Lint.plugins.map fun p => "  " ++ s.symbols.bullet ++ " " ++ p)
    let template := ((((Template.blank h.env none).header "HCNC INIT" "Initializing HCNC for BiomeJS").addSection
      "STATUS" (s.symbols.pass ++ " " ++ setupStatus r)).addSection "PLUGINS" listing).footer r.path.text
    ({ h with files }.print (template.render "init" (.object [("changed", .bool r.changed)])) 0).after
      (logged verbose entries)

/-! ## Printing patterns -/

/-- the exported sources that the arguments ask for -/
def exported (a : Arguments) : Value :=
  if a.has "utilities" then .object (utilityCatalog.map fun g => (g.1, .texts g.2))
  else .object ((if a.has "grit" then lintSources else exportedSources).map fun e => (e.1, .text e.2))

/-- sources as lines: a name and its source, or a name with its sources under it -/
def sourceLines (bullet : String) : Scalar × Value → List String
  | (name, .list sources) => (name.shown ++ ":") :: sources.map fun v => "  " ++ bullet ++ " " ++ v.shown
  | (name, v) => [name.shown ++ ": " ++ v.shown]

def patterns (h : Host) (s : Session) (a : Arguments) : Ending :=
  let data := exported a
  match a.has "as_list", data with
  | true, .map entries => h.print (.ok ("\n".intercalate (entries.flatMap (sourceLines s.symbols.bullet)))) 0
  | _, _ => h.print (.ok (Json.pretty data)) 0

/-! ## Settings -/

def configTemplate (h : Host) (subtitle : String) : Template :=
  (Template.blank h.env none).header "HCNC CONFIG" subtitle

def showConfig (h : Host) (s : Session) : Ending :=
  match s.manager.load h.files with
  | (.error cause, _, _) => ⟨.error cause, [], h.files⟩
  | (.ok settings, _, manager) =>
    h.print (do
      let text ← manager.describe s.console settings
      ((configTemplate h "Current Configuration").addSection "SETTINGS" text).render "config" (.map [])) 0

def setConfig (h : Host) (s : Session) (key text : String) (scope : Scope) : Ending :=
  let change := (s.set h.files key text scope).1
  let h := { h with files := change.files }
  match change.result with
  | .error cause => ⟨.error cause, [], h.files⟩
  | .ok (some refused) =>
    h.print (((configTemplate h "Error").addSection "ERROR" refused).render "config" (.object [("error", .bool true)])) 1
  | .ok none =>
    let template := (((configTemplate h "Configuration Updated").addSection "SETTING"
      ("Set " ++ key ++ " = " ++ text)).addSection "SAVED TO" (s.manager.file scope).text).footer
      (s.symbols.pass ++ " Configuration saved")
    h.print (template.render "config" (.object [("updated", .bool true)])) 0

/-- the key and the text on both sides of the first equals sign -/
def splitSetting? (s : String) : Option (String × String) :=
  match s.toList.dropWhile (· != '=') with
  | [] => none
  | _ :: text => some (String.ofList (Text.trim (s.toList.takeWhile (· != '='))), String.ofList (Text.trim text))

def config (h : Host) (s : Session) (a : Arguments) : Ending :=
  match (a.value? "set").getD "" with
  | "" => showConfig h s
  | setting =>
    match splitSetting? setting with
    | none => ⟨.ok 1, [.out "Error: Use format KEY=VALUE (e.g., rules.strict_bem=true)\n"], h.files⟩
    | some (key, text) => setConfig h s key text (if a.has "user" then .user else .project)

/-! ## The whole line -/

/-- do what a command asks for -/
def perform (h : Host) (verbose : Bool) (s : Session) : Verb → Arguments → Ending
  | .validate, a => validate h s a
  | .check, a => check h verbose s a
  | .init, _ => init h verbose s
  | .patterns, a => patterns h s a
  | .config, a => config h s a
  | .help, _ => h.print (.ok guide) 0

/-- what a halted command writes -/
def halt (h : Host) : Halted → Ending
  | (c, .help) => ⟨.ok 0, [.out (c.help h.helpWidth)], h.files⟩
  | (_, .version) => ⟨.ok 0, [.out (tool.title ++ " " ++ version ++ "\n")], h.files⟩
  | (c, .refused message) => ⟨.ok 2, [.err (c.refusal h.helpWidth message)], h.files⟩

/-- the directory of the project: as asked for, as the environment says, or the one the run takes place in -/
def projectOf (h : Host) (a : Arguments) : Path :=
  .ofText ((a.value? "project").getD ((h.env.get? "HCNC_PROJECT_PATH").getD "."))

/-- run a command line -/
def run (h : Host) (words : List String) : Ending :=
  match request words with
  | .error halted => halt h halted
  | .ok ⟨_, none⟩ => ⟨.ok 0, [.out (tool.help h.helpWidth)], h.files⟩
  | .ok ⟨general, some (verb, a)⟩ =>
    let verbose := general.has "verbose"
    match Session.start h.console h.home (projectOf h general) h.files with
    | (.error cause, ws) => ⟨.error cause, logged verbose ws, h.files⟩
    | (.ok s, ws) => (perform h verbose s verb a).after (logged verbose ws)

end ClassNaming.Cli
