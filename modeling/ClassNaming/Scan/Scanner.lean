/-
Scanning files for class names that break the rules.

A file that cannot be read is reported with the error and a warning, and the scan goes on; so is one whose extractor
fails or does not answer in time.
-/
import ClassNaming.Naming.Verdict
import ClassNaming.Scan.Discover
import ClassNaming.Scan.Report
import ClassNaming.Tasks.Orchestrator
import ClassNaming.Log

namespace ClassNaming

/-- the rules, the sources and the directories of a scan -/
structure Scanner where
  rules : Rules
  registry : Registry
  exclusion : Exclusion

namespace Scanner

/-- a scanner; a registry without sources is replaced by the built-in one -/
def create (rules : Rules) (registry : Registry) (exclusion : Exclusion) : Scanner :=
  ⟨rules, if registry.sources.isEmpty then .builtin else registry, exclusion⟩

def entry (level : Level) (message : String) : LogEntry :=
  ⟨level, "hcnc.services.scanner", message⟩

/-- the category of a file's source -/
def category (s : Scanner) (p : Path) : String :=
  ((s.registry.sourceFor? p).map (·.category)).getD "unknown"

/-- the tokens that break the rules -/
def findings (s : Scanner) (path : String) (tokens : List String) : List Finding :=
  tokens.filterMap fun token =>
    let verdict := judge s.rules token
    if verdict.valid then none
    else some ⟨path, token, match verdict.message with
      | some m => if m.isEmpty then "Invalid class name" else m
      | none => "Invalid class name"⟩

/-- the report on a text of a source, if its extractor answers -/
def reportText (s : Scanner) (path : String) (source : Source) (text : String) : Work FileReport :=
  match source.extract text with
  | .tokens found =>
    let classes := Extract.unique found
    { outcome := .ok { path, source := source.category, classes, findings := s.findings path classes } }
  | .fails cause => { outcome := .error cause }
  | .stalls => { outcome := .ok { path, source := source.category }, holds := true }

/-- the entry about a file that has been read -/
def scannedEntry (r : FileReport) : LogEntry :=
  entry .debug ("Scanned " ++ r.path ++ ": " ++ natText r.classes.length ++ " classes, " ++ natText r.findings.length
    ++ " invalid")

/-- the work on one file, and what it writes to the log -/
def fileWork (s : Scanner) (files : Tree) (p : Path) : Work FileReport × List LogEntry :=
  match s.registry.sourceFor? p with
  | none => ({ outcome := .ok { path := p.text, source := "unknown" } }, [])
  | some source =>
    match files.readText p with
    | .error cause =>
      ({ outcome := .ok { path := p.text, source := source.category, error := some cause.message } },
        [entry .warning ("Error reading " ++ p.text ++ ": " ++ cause.message)])
    | .ok cs =>
      let work := s.reportText p.text source (String.ofList cs)
      (work, match work.outcome with
        | .ok report => [scannedEntry report]
        | .error _ => [])

/-- the report on a file whose scan failed or was not done in time -/
def failedReport (s : Scanner) (p : Path) (error : Option String) : FileReport :=
  { path := p.text, source := s.category p, error }

/-- the entry about a file whose scan failed or was not done in time -/
def failureEntry (p : Path) (error : String) : LogEntry :=
  entry .warning ("Could not scan " ++ p.text ++ ": " ++ error)

/-- the files under a root -/
def discover (s : Scanner) (files : Tree) (root : Path) : Except Fault (List Path) :=
  ClassNaming.discover s.registry s.exclusion files root

/-- a slot of a scan: the report, and the error of the task if it did not end well -/
abbrev Slot := FileReport × Option String

/-- the work on one file, told apart from a failure of the task -/
def slotWork (s : Scanner) (files : Tree) (p : Path) : Work Slot :=
  let work := (s.fileWork files p).1
  { outcome := work.outcome.map fun report => (report, none), holds := work.holds, millis := work.millis }

/-- the entry about the files of a scan -/
def discoveredEntry (root : Path) (paths : List Path) : LogEntry :=
  entry .debug ("Discovered " ++ natText paths.length ++ " files under " ++ root.text)

/-- scan everything under a root: the result, the log in the order it is written, and the orchestrator afterwards -/
def scan (s : Scanner) (o : Orchestrator) (files : Tree) (root : Path) :
    Except Fault (ScanResult × List LogEntry) × Orchestrator :=
  match s.discover files root with
  | .error cause => (.error cause, o)
  | .ok paths =>
    let substitute (p : Path) (r : TaskResult Slot) : Slot := (s.failedReport p r.error, r.error)
    match o.map (s.slotWork files) Path.text (some substitute) paths with
    | (.error cause, o) => (.error cause, o)
    | (.ok slots, o) =>
      let done := paths.zip slots
      let read := done.flatMap fun slot => if slot.2.2.isNone then (s.fileWork files slot.1).2 else []
      let failed := done.filterMap fun slot => slot.2.2.map (failureEntry slot.1)
      (.ok (⟨root.text, slots.map (·.1)⟩, discoveredEntry root paths :: read ++ failed), o)

end Scanner

end ClassNaming
