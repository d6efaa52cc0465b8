/-
A pool of workers that serve one queue, first come first served.

The pool is a machine over its jobs in the order they were submitted. Its steps are: submit a job, start the first
queued one if a worker is free, finish a running one, cancel one that is still queued, and close the pool for further
jobs. The counts of active, completed and failed jobs are kept step by step. `settle` takes every step that needs no
waiting: it starts what it can and finishes each started job that does not hold its worker.
-/
import ClassNaming.Fault
import ClassNaming.Tasks.Settings

namespace ClassNaming

/-- a job as the pool sees it: whether it returns when it ends, whether it holds its worker until it is released, and
the time it takes -/
structure Job where
  returns : Bool
  holds : Bool
  millis : Real64 := Real64.ofInt 0
deriving DecidableEq, Repr, Inhabited

/-- where a job is -/
inductive JobState where
  | queued
  | running
  | returned
  | raised
  | cancelled
deriving DecidableEq, Repr, Inhabited

/-- counts over the jobs of a pool, and the time that the completed ones took -/
structure PoolStats where
  active : Int := 0
  completed : Int := 0
  failed : Int := 0
  totalMillis : Real64 := Real64.ofInt 0
deriving DecidableEq, Repr, Inhabited

namespace PoolStats

/-- the mean time of a completed job, zero when there is none -/
def meanMillis (s : PoolStats) : Real64 :=
  if s.completed == 0 then Real64.ofInt 0
  else
    let mean := s.totalMillis.divNat s.completed.natAbs
    if s.completed < 0 then mean.mul (Real64.ofInt (-1)) else mean

/-- the counts as a mapping -/
def counts (s : PoolStats) : List (String × Value) :=
  [("active_tasks", .int s.active), ("completed_tasks", .int s.completed), ("failed_tasks", .int s.failed)]

/-- the counts and the mean time to two places -/
def fields (s : PoolStats) : List (String × Value) :=
  s.counts ++ [("avg_duration_ms", .real (s.meanMillis.roundPlaces 2))]

end PoolStats

/-- a pool: its workers, its jobs in the order they came, its counts, and whether it takes no more jobs -/
structure Pool where
  workers : Nat
  jobs : List (Job × JobState)
  stats : PoolStats
  closed : Bool
deriving Repr, Inhabited

namespace Pool

/-- a pool without jobs, which has at least one worker -/
def create (settings : WorkerSettings) : Except Fault Pool :=
  if settings.workers.isAtMostZero then .error (.badSetting "max_workers" "greater than 0")
  else .ok ⟨settings.workers.count, [], {}, false⟩

/-- the state of a job -/
def state? (p : Pool) (i : Nat) : Option JobState :=
  (p.jobs[i]?).map (·.2)

/-- the pool with one job in another state -/
def setState (p : Pool) (i : Nat) (s : JobState) : Pool :=
  { p with jobs := p.jobs.modify i fun job => (job.1, s) }

def isRunning (job : Job × JobState) : Bool := job.2 == .running

/-- the number of workers that have a job -/
def busy (p : Pool) : Nat :=
  p.jobs.countP isRunning

/-- put a job in the queue -/
def submit (p : Pool) (job : Job) : Except Fault Pool :=
  if p.closed then .error (.stopped "Pool")
  else .ok { p with jobs := p.jobs ++ [(job, .queued)], stats := { p.stats with active := p.stats.active + 1 } }

/-- start a queued job if a worker is free -/
def start (p : Pool) (i : Nat) : Pool :=
  if p.state? i == some .queued && p.busy < p.workers then p.setState i .running else p

/-- end a running job, which counts as completed or failed by how it ends; the time of a completed one is added -/
def finish (p : Pool) (i : Nat) : Pool :=
  match p.jobs[i]? with
  | some (job, .running) =>
    let stats := { p.stats with active := p.stats.active - 1 }
    if job.returns then
      { p.setState i .returned with
        stats := { stats with completed := stats.completed + 1, totalMillis := stats.totalMillis.add job.millis } }
    else { p.setState i .raised with stats := { stats with failed := stats.failed + 1 } }
  | _ => p

/-- take a job out of the queue, which counts as failed; one that has started goes on -/
def cancel (p : Pool) (i : Nat) : Pool :=
  if p.state? i == some .queued then
    { p.setState i .cancelled with
      stats := { p.stats with active := p.stats.active - 1, failed := p.stats.failed + 1 } }
  else p

/-- take no more jobs -/
def close (p : Pool) : Pool :=
  { p with closed := true }

/-- finish a running job that does not hold its worker -/
def finishFree (p : Pool) (i : Nat) : Pool :=
  match p.jobs[i]? with
  | some (job, _) => if job.holds then p else p.finish i
  | none => p

/-- start and finish what can be, job by job in the order they came -/
def settle (p : Pool) : Pool :=
  (List.range p.jobs.length).foldl (fun p i => ((p.finishFree i).start i).finishFree i) p

/-- let every job end that holds its worker, and then all that were waiting -/
def release (p : Pool) : Pool :=
  settle { p with jobs := p.jobs.map fun job => ({ job.1 with holds := false }, job.2) }

end Pool

end ClassNaming
