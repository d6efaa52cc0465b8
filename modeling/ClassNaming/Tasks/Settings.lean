/-
How file work is spread over workers: whether at all, over how many, and how long to wait.

The settings come from the environment, where a text that is no number leaves the default, or are given directly.
-/
import ClassNaming.Decimal.Layout
import ClassNaming.Environment
import ClassNaming.Text.Case
import ClassNaming.Value.Walk

namespace ClassNaming

/-- a number that may be whole -/
inductive Quantity where
  | whole (n : Int)
  | real (x : Real64)
deriving DecidableEq, Repr, Inhabited

namespace Quantity

/-- the quantity as a floating point number -/
def toReal : Quantity → Real64
  | .whole n => Real64.ofInt n
  | .real x => x

/-- the quantity as a value of a report -/
def value : Quantity → Value
  | .whole n => .int n
  | .real x => .real x

/-- less than one; what is no number is not -/
def isBelowOne : Quantity → Bool
  | .whole n => n < 1
  | .real .nan => false
  | .real (.infinite negative) => negative
  | .real (.finite negative m e) =>
    let (num, den) := Real64.ratio m e
    negative || num < den

/-- not more than zero; what is no number is not -/
def isAtMostZero : Quantity → Bool
  | .whole n => n ≤ 0
  | .real .nan => false
  | .real x => !x.isPositive

/-- less than zero; what is no number is not -/
def isBelowZero : Quantity → Bool
  | .whole n => n < 0
  | .real x => x.isBelowZero

/-- the least natural number that is not less, zero for what is no number -/
def count : Quantity → Nat
  | .whole n => n.toNat
  | .real (.finite false m e) =>
    let (num, den) := Real64.ratio m e
    (num + den - 1) / den
  | .real _ => 0

/-- six significant digits at most -/
def short (q : Quantity) : String :=
  q.toReal.general

end Quantity

/-- the settings of the workers; the times are in seconds -/
structure WorkerSettings where
  enabled : Value := .bool true
  workers : Quantity := .whole 4
  taskTimeout : Quantity := .real (Real64.ofInt 60)
  shutdownTimeout : Quantity := .real (Real64.ofInt 10)
deriving Repr, Inhabited

namespace WorkerSettings

/-- a variable that says yes or no -/
def flagOf (env : Environment) (name : String) (default : Bool) : Bool :=
  let word := Text.lower (env.get name)
  if ["true", "1", "yes", "on"].contains word then true
  else if ["false", "0", "no", "off"].contains word then false
  else default

def timeOf (env : Environment) (name : String) (default : Quantity) : Quantity :=
  match readReal? (env.get name) with
  | some x => .real x
  | none => default

/-- the settings of an environment -/
def ofEnvironment (env : Environment) : WorkerSettings :=
  let base : WorkerSettings := {}
  { enabled := .bool (flagOf env "HCNC_PARALLEL_ENABLED" true)
    workers := match readInt? (env.get "HCNC_IO_WORKERS") with
      | some n => .whole n
      | none => base.workers
    taskTimeout := timeOf env "HCNC_TASK_TIMEOUT" base.taskTimeout
    shutdownTimeout := timeOf env "HCNC_SHUTDOWN_TIMEOUT" base.shutdownTimeout }

/-- the settings are within their bounds -/
def validate (s : WorkerSettings) : Except Fault Unit :=
  if s.workers.isBelowOne then .error (.badSetting "HCNC_IO_WORKERS" ">= 1")
  else if s.taskTimeout.isAtMostZero then .error (.badSetting "HCNC_TASK_TIMEOUT" "> 0")
  else if s.shutdownTimeout.isBelowZero then .error (.badSetting "HCNC_SHUTDOWN_TIMEOUT" ">= 0")
  else .ok ()

/-- the settings as a mapping -/
def fields (s : WorkerSettings) : List (String × Value) :=
  [("enabled", s.enabled), ("io_workers", s.workers.value), ("task_timeout", s.taskTimeout.value),
    ("shutdown_timeout", s.shutdownTimeout.value)]

end WorkerSettings

end ClassNaming
