/-
What a run writes to its log.
-/

namespace ClassNaming

/-- how much an entry matters; what is below a warning is only shown on request -/
inductive Level where
  | debug
  | warning
deriving DecidableEq, Repr, Inhabited

def Level.word : Level → String
  | .debug => "DEBUG"
  | .warning => "WARNING"

/-- one entry of a log, with the part of the program it comes from -/
structure LogEntry where
  level : Level
  origin : String
  message : String
deriving DecidableEq, Repr, Inhabited

namespace LogEntry

def isWarning (e : LogEntry) : Bool :=
  e.level == .warning

/-- the line of an entry -/
def text (e : LogEntry) : String :=
  e.level.word ++ " [" ++ e.origin ++ "] " ++ e.message

end LogEntry

end ClassNaming
