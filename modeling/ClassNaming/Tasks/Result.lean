/-
What came of a task, as it is handed back and logged.

A log record holds only what its format can write. Which format that is stays open: a result that it has no form for is
replaced by the text it is shown as.
-/
import ClassNaming.Value.Walk

namespace ClassNaming

/-- how a task ended -/
inductive TaskStatus where
  | completed
  | failed
  | timedOut
deriving DecidableEq, Repr, Inhabited

namespace TaskStatus

def word : TaskStatus → String
  | .completed => "completed"
  | .failed => "failed"
  | .timedOut => "timed_out"

def ofWord? (s : String) : Option TaskStatus :=
  [TaskStatus.completed, .failed, .timedOut].find? (·.word == s)

end TaskStatus

/-- the outcome of a task: its result, or the error text of a failure -/
structure TaskResult (α : Type) where
  status : TaskStatus
  result : Option α
  error : Option String
deriving Repr

namespace TaskResult

variable {α : Type}

def success (r : TaskResult α) : Bool := r.status == .completed

def failed (r : TaskResult α) : Bool := r.status != .completed

/-- the text of a failure: its label and its message -/
def errorText (cause : Fault) : String :=
  cause.label ++ ": " ++ cause.message

/-- the result of a task that came to its end; a request to leave the program and an interrupt, which end the run and
not the task, are no faults of it -/
def ofOutcome : Except Fault α → TaskResult α
  | .ok a => ⟨.completed, some a, none⟩
  | .error cause => ⟨.failed, none, some (errorText cause)⟩

end TaskResult

/-- how log records are written: which values have a form there, and the line of a record -/
class RecordWriter where
  holds : Value → Bool
  line : Value → String

/-- the value itself if a log record can hold it, else the text it is shown as -/
def Value.loggable [RecordWriter] (v : Value) : Value :=
  if RecordWriter.holds v then v else .text v.shown

/-- the record of a finished task: who it was, how it ended, and when -/
structure TaskRecord where
  id : String
  status : TaskStatus
  result : Value
  error : Value
  started : Value
  ended : Value
  millis : Value
deriving Repr

namespace TaskRecord

/-- the record as a mapping -/
def value [RecordWriter] (r : TaskRecord) : Value :=
  .object [("task_id", .text r.id), ("status", .text r.status.word), ("result", r.result.loggable),
    ("error", r.error), ("started_at", r.started), ("completed_at", r.ended), ("duration_ms", r.millis)]

/-- the record on one line -/
def line [RecordWriter] (r : TaskRecord) : String :=
  RecordWriter.line r.value

end TaskRecord

/-- a task by its name, or by its id if it has none -/
def taskLabel (name id : String) : String :=
  if name.isEmpty then id else name

/-- the failure that a failed task is reported as -/
def taskFault (label : String) (error : Option String) : Fault :=
  .taskFailed label (error.getD "None")

end ClassNaming
