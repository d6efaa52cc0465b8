/-
Spreading work over a pool, or doing it in order when the pool is switched off; either way the results come in the
order of the items.

The pool is made when the first job needs it. A mapped item whose task fails, or is not done when its wait is over, has
its place taken by a substitute, or fails the whole map if there is no substitute.
-/
import ClassNaming.Tasks.Pool
import ClassNaming.Tasks.Result

namespace ClassNaming

/-- a task: what it comes to, whether it holds its worker until it is released, and the time it takes -/
structure Work (α : Type) where
  outcome : Except Fault α
  holds : Bool := false
  millis : Real64 := Real64.ofInt 0

namespace Work

variable {α : Type}

/-- the task as a pool sees it -/
def job (w : Work α) : Job :=
  ⟨match w.outcome with
    | .ok _ => true
    | .error _ => false, w.holds, w.millis⟩

end Work

/-- the settings, the pool once it is needed, and whether work is still taken -/
structure Orchestrator where
  settings : WorkerSettings
  pool : Option Pool
  stopped : Bool
deriving Repr, Inhabited

namespace Orchestrator

variable {α ι : Type}

/-- an orchestrator with valid settings -/
def create (settings : WorkerSettings) : Except Fault Orchestrator := do
  settings.validate
  return ⟨settings, none, false⟩

/-- work is spread over a pool -/
def isEnabled (o : Orchestrator) : Bool :=
  o.settings.enabled.isTruthy

/-- the pool, made if there is none yet -/
def startedPool (o : Orchestrator) : Except Fault Pool :=
  match o.pool with
  | some p => .ok p
  | none => Pool.create o.settings

/-- hand tasks to the pool one by one -/
def submitAll (p : Pool) : List (Work α) → Except Fault Pool
  | [] => .ok p
  | w :: rest => do submitAll (← p.submit w.job) rest

/-- the result of a task whose wait is over -/
def timedOut (settings : WorkerSettings) : TaskResult α :=
  ⟨.timedOut, none, some ("timed out after " ++ settings.taskTimeout.short ++ "s")⟩

/-- wait for the job of a task: its outcome if it has ended, else it is cancelled -/
def await (settings : WorkerSettings) (p : Pool) (i : Nat) (w : Work α) : TaskResult α × Pool :=
  match p.state? i with
  | some .returned | some .raised => (.ofOutcome w.outcome, p)
  | _ => (timedOut settings, p.cancel i)

/-- the place of an item in the list of results -/
def slot (label : ι → String) (onFailure : Option (ι → TaskResult α → α)) (item : ι) (r : TaskResult α) :
    Except Fault α :=
  match r.status, r.result with
  | .completed, some a => .ok a
  | _, _ =>
    match onFailure with
    | some substitute => .ok (substitute item r)
    | none => .error (taskFault (label item) r.error)

/-- the results of tasks done in order, each done before the first result is looked at -/
def mapInOrder (label : ι → String) (onFailure : Option (ι → TaskResult α → α)) :
    List (ι × Work α) → Except Fault (List α)
  | [] => .ok []
  | (item, w) :: rest => do
    let a ← slot label onFailure item (.ofOutcome w.outcome)
    return a :: (← mapInOrder label onFailure rest)

/-- the results of tasks in a pool, the jobs numbered from `i`; the waits end in the order of the items -/
def collect (settings : WorkerSettings) (label : ι → String) (onFailure : Option (ι → TaskResult α → α)) :
    Pool → Nat → List (ι × Work α) → Except Fault (List α) × Pool
  | p, _, [] => (.ok [], p)
  | p, i, (item, w) :: rest =>
    let (r, p) := await settings p i w
    match slot label onFailure item r with
    | .error cause => (.error cause, p)
    | .ok a =>
      let (results, p) := collect settings label onFailure p (i + 1) rest
      (results.map (a :: ·), p)

/-- apply `run` to each item -/
def map (o : Orchestrator) (run : ι → Work α) (label : ι → String) (onFailure : Option (ι → TaskResult α → α))
    (items : List ι) : Except Fault (List α) × Orchestrator :=
  let work := items.map fun item => (item, run item)
  if items.isEmpty then (.ok [], o)
  else if o.stopped then (.error (.stopped "Orchestrator"), o)
  else if !o.isEnabled then (mapInOrder label onFailure work, o)
  else match o.startedPool with
  | .error cause => (.error cause, o)
  | .ok p =>
    match submitAll p (work.map (·.2)) with
    | .error cause => (.error cause, { o with pool := some p })
    | .ok queued =>
      let (results, p) := collect o.settings label onFailure queued.settle p.jobs.length work
      (results, { o with pool := some p })

/-- do one task and wait for its end -/
def submit (o : Orchestrator) (w : Work α) : Except Fault (TaskResult α) × Orchestrator :=
  if o.stopped then (.error (.stopped "Orchestrator"), o)
  else if !o.isEnabled then (.ok (.ofOutcome w.outcome), o)
  else match o.startedPool with
  | .error cause => (.error cause, o)
  | .ok p =>
    match p.submit w.job with
    | .error cause => (.error cause, { o with pool := some p })
    | .ok p => (.ok (.ofOutcome w.outcome), { o with pool := some p.settle })

/-- take no more work; jobs that hold their workers are let go, and those that wait are done -/
def shutdown (o : Orchestrator) : Orchestrator :=
  { o with stopped := true, pool := o.pool.map fun p => p.release.close }

/-- the counts of the pool -/
def poolStats (o : Orchestrator) : PoolStats :=
  (o.pool.map (·.stats)).getD {}

/-- the settings and the counts -/
def stats (o : Orchestrator) : Value :=
  .object [("config", .object o.settings.fields), ("io_pool", .object o.poolStats.fields)]

end Orchestrator

end ClassNaming
