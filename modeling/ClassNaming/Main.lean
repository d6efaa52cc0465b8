/-
The command line tool.

A run sees the directory it is started in, and the user's settings under the name `~`. What it changes there is written
back when it ends.
-/
import ClassNaming.Cli.Run
import Std.Time

namespace ClassNaming.Cli

/-- the variables that a run looks at -/
def variableNames : List String :=
  ["COLUMNS", "LANG", "LC_ALL", "HCNC_ALLOW_UNKNOWN", "HCNC_ASCII_ONLY", "HCNC_CUSTOM_UTILITIES", "HCNC_IO_WORKERS",
    "HCNC_PARALLEL_ENABLED", "HCNC_PROJECT_PATH", "HCNC_SHUTDOWN_TIMEOUT", "HCNC_STRICT_BEM", "HCNC_TASK_TIMEOUT",
    "HCNC_UNICODE"]

def readEnvironment : IO Environment := do
  let mut vars := []
  for name in variableNames do
    match ← IO.getEnv name with
    | some value => vars := (name, value) :: vars
    | none => pure ()
  return ⟨vars⟩

/-- the tree below a directory -/
partial def readTree (dir : String) : IO Tree := do
  let mut entries := []
  for entry in ← (← IO.FS.realPath dir).readDir do
    let place := dir ++ "/" ++ entry.fileName
    let found ← if ← entry.path.isDir then readTree place
      else pure (.file (← IO.FS.readBinFile place).toList)
    entries := (entry.fileName, found) :: entries
  return .dir entries.reverse

/-- the name that the user's directory goes by -/
def homeName : String := "~"

/-- the user's directory -/
def homeDirectory : IO String := do
  return (← IO.getEnv "HOME").getD "."

/-- the files of a run -/
def readFiles : IO Tree := do
  let here ← readTree "."
  try
    let settings ← IO.FS.readBinFile ((← homeDirectory) ++ "/.hcnc/config.yaml")
    return here.put [homeName, ".hcnc", "config.yaml"] (.file settings.toList)
  catch _ => return here.put [homeName] .empty

/-- write back the files that a run has changed -/
def writeFiles (before after : Tree) : IO Unit := do
  for (names, content) in Tree.changes before after do
    let names ← match names with
      | first :: rest => if first == homeName then pure ((← homeDirectory) :: rest) else pure (first :: rest)
      | [] => pure []
    if 1 < names.length then IO.FS.createDirAll ("/".intercalate names.dropLast)
    IO.FS.writeBinFile ("/".intercalate names) ⟨content.toArray⟩

/-- write to the streams of the run -/
def write : Output → IO Unit
  | .out text => IO.print text
  | .err text => IO.eprint text
  | .log entry => do
    let now ← Std.Time.PlainDateTime.now
    IO.eprintln ("[" ++ now.format "uuuu-MM-dd HH:mm:ss,SSS" ++ "] " ++ entry.text)

/-- run a command line where the tool is started -/
def runHere (words : List String) : IO UInt32 := do
  let files ← readFiles
  let ending := run ⟨← readEnvironment, "utf-8", .utf8, ⟨"", [homeName]⟩, files⟩ words
  ending.written.forM write
  writeFiles files ending.files
  match ending.code with
  | .ok code => return UInt32.ofNat code
  | .error cause =>
    IO.eprintln (cause.label ++ ": " ++ cause.message)
    return 1

end ClassNaming.Cli

def main (words : List String) : IO UInt32 :=
  ClassNaming.Cli.runHere words
