/-
What a scan learned: one report per file, and the totals over all of them.
-/
import ClassNaming.Table
import ClassNaming.Value.Basic

namespace ClassNaming

/-- a token that breaks the rules, in its file, with what is wrong -/
structure Finding where
  file : String
  token : String
  message : String
deriving DecidableEq, Repr, Inhabited

def Finding.value (f : Finding) : Value :=
  .object [("file", .text f.file), ("token", .text f.token), ("message", .text f.message)]

/-- what is known of one file; there is an error if it could not be read or scanned -/
structure FileReport where
  path : String
  source : String
  classes : List String := []
  findings : List Finding := []
  error : Option String := none
deriving DecidableEq, Repr, Inhabited

namespace FileReport

def isReadable (r : FileReport) : Bool := r.error.isNone

/-- the report as a mapping, with an error only if there is one and it is not empty -/
def value (r : FileReport) : Value :=
  .object ([("path", .text r.path), ("source", .text r.source), ("classes", .nat r.classes.length),
    ("invalid", .list (r.findings.map Finding.value))]
    ++ match r.error with
      | some e => if e.isEmpty then [] else [("error", .text e)]
      | none => [])

end FileReport

/-- the reports of a scan, in the order of the files -/
structure ScanResult where
  root : String
  files : List FileReport
deriving DecidableEq, Repr, Inhabited

namespace ScanResult

/-- the number of classes, one that several files have counted for each of them -/
def totalClasses (r : ScanResult) : Nat :=
  (r.files.flatMap (·.classes)).length

def findings (r : ScanResult) : List Finding :=
  r.files.flatMap (·.findings)

def invalidCount (r : ScanResult) : Nat :=
  r.findings.length

def unreadable (r : ScanResult) : List FileReport :=
  r.files.filter (!·.isReadable)

def passed (r : ScanResult) : Bool := r.invalidCount == 0

/-- the findings by file, for the files that have any -/
def byFile (r : ScanResult) : List (String × List Finding) :=
  r.files.foldl (fun groups f => if f.findings.isEmpty then groups else Table.set f.path f.findings groups) []

/-- the result as a mapping -/
def value (r : ScanResult) : Value :=
  .object [("root", .text r.root),
    ("summary", .object [("files", .nat r.files.length), ("classes", .nat r.totalClasses),
      ("invalid", .nat r.invalidCount), ("unreadable", .nat r.unreadable.length)]),
    ("files", .list (r.files.map FileReport.value))]

end ScanResult

end ClassNaming
