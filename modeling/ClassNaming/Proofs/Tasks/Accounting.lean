/-
The counts of a pool after every step of every run.

A run is a list of steps in any order: a job is submitted, a worker starts a queued job, a running job ends by returning
or by raising, a job is cancelled, as by a wait that has expired, and the pool is closed. A step that is not possible
changes nothing.

- `count_moved`: what a job that changes its state does to a count of jobs by their states.
- `Accounted`, `step_accounted`: the counts that a pool keeps are those of its jobs, and each step keeps it so.
- `length_run`, `closed_run`: the jobs are those of the submits that were not refused, and a submit is refused exactly
  after the pool was closed.
- `counts_along_run`: the counts after every run of a new pool.
-/
import ClassNaming.Proofs.Tasks.JobStates

namespace ClassNaming

namespace JobState

/-- neither finished nor cancelled -/
def isPending (s : JobState) : Bool := !s.isEnded && s != .cancelled

/-- finished by returning -/
def isReturned (s : JobState) : Bool := s == .returned

/-- finished by raising, or cancelled -/
def isLost (s : JobState) : Bool := s == .raised || s == .cancelled

end JobState

namespace Pool

/-- what may happen to a pool -/
inductive Step where
  | submit (job : Job)
  | start (i : Nat)
  | finish (i : Nat)
  | cancel (i : Nat)
  | close
deriving DecidableEq, Repr

/-- the pool after a step; a submit that is refused leaves it as it is -/
def step (p : Pool) : Step → Pool
  | .submit job =>
    match p.submit job with
    | .ok q => q
    | .error _ => p
  | .start i => p.start i
  | .finish i => p.finish i
  | .cancel i => p.cancel i
  | .close => p.close

def run (p : Pool) (steps : List Step) : Pool := steps.foldl step p

/-- the step is a submit that is not refused -/
def accepts (p : Pool) : Step → Bool
  | .submit _ => !p.closed
  | _ => false

/-- the number of submits of a run that are not refused -/
def accepted : Pool → List Step → Nat
  | _, [] => 0
  | p, s :: steps => (if p.accepts s then 1 else 0) + accepted (p.step s) steps

/-- the number of jobs whose states have a property -/
def count (p : Pool) (f : JobState → Bool) : Nat := p.jobs.countP fun job => f job.2

/-! ## Counting jobs by their states -/

/-- what a count gains when a job goes from one state to another -/
def gain (f : JobState → Bool) (s u : JobState) : Int := (if f u then 1 else 0) - (if f s then 1 else 0)

section

variable {p q : Pool} {i : Nat} {job : Job} {s u : JobState}

theorem count_moved (h : p.jobs[i]? = some (job, s)) (hq : q.jobs = (p.setState i u).jobs) (f : JobState → Bool) :
    (q.count f : Int) = p.count f + gain f s u := by
  obtain ⟨hi, hget⟩ := List.getElem?_eq_some_iff.1 h
  have hold : p.jobs = p.jobs.take i ++ (job, s) :: p.jobs.drop (i + 1) := by
    rw [← hget, List.getElem_cons_drop, List.take_append_drop]
  have hnew : q.jobs = p.jobs.take i ++ (job, u) :: p.jobs.drop (i + 1) := by
    rw [hq, setState, List.modify_eq_take_cons_drop hi, hget]
  have hcount : q.count f + (if f s then 1 else 0) = p.count f + (if f u then 1 else 0) := by
    unfold count
    conv_rhs => rw [hold]
    simp only [hnew, List.countP_append, List.countP_cons]
    omega
  unfold gain
  split_ifs at hcount ⊢ <;> omega

theorem count_submit (h : p.submit job = .ok q) (f : JobState → Bool) :
    q.count f = p.count f + if f .queued then 1 else 0 := by
  obtain ⟨-, hjobs, -⟩ := submit_eq_ok h
  unfold count
  rw [hjobs, List.countP_append, List.countP_singleton]

/-- every job is pending, returned or lost, and no job is two of these -/
theorem count_add_count (p : Pool) :
    p.count JobState.isPending + p.count JobState.isReturned + p.count JobState.isLost = p.jobs.length := by
  unfold count
  induction p.jobs with
  | nil => rfl
  | cons entry jobs ih =>
    have hone : ∀ s : JobState, (if s.isPending then 1 else 0) + (if s.isReturned then 1 else 0) +
        (if s.isLost then 1 else 0) = 1 := by
      intro s
      cases s <;> rfl
    have hentry := hone entry.2
    simp only [List.countP_cons, List.length_cons]
    omega

end

/-! ## What a step does to the counts -/

/-- the counts that the pool keeps are those of its jobs -/
structure Accounted (p : Pool) : Prop where
  active : p.stats.active = p.count JobState.isPending
  completed : p.stats.completed = p.count JobState.isReturned
  failed : p.stats.failed = p.count JobState.isLost

theorem accounted_create {settings : WorkerSettings} {p : Pool} (h : create settings = .ok p) : p.Accounted := by
  unfold create at h
  split_ifs at h
  cases h
  exact ⟨rfl, rfl, rfl⟩

section

variable {p q : Pool} (hp : p.Accounted)

include hp

/-- a pool is still accounted for if its counts have gained what the change of state of a job brings -/
theorem accounted_moved {i : Nat} {job : Job} {s u : JobState} (h : p.jobs[i]? = some (job, s))
    (hjobs : q.jobs = (p.setState i u).jobs)
    (hactive : q.stats.active = p.stats.active + gain JobState.isPending s u)
    (hcompleted : q.stats.completed = p.stats.completed + gain JobState.isReturned s u)
    (hfailed : q.stats.failed = p.stats.failed + gain JobState.isLost s u) : q.Accounted where
  active := by rw [hactive, hp.active, count_moved h hjobs]
  completed := by rw [hcompleted, hp.completed, count_moved h hjobs]
  failed := by rw [hfailed, hp.failed, count_moved h hjobs]

theorem accounted_submit {job : Job} (h : p.submit job = .ok q) : q.Accounted := by
  have hstats : q.stats = { p.stats with active := p.stats.active + 1 } := by
    unfold submit at h
    split_ifs at h
    cases h
    rfl
  constructor
  · rw [hstats, count_submit h]
    exact congrArg (· + 1) hp.active
  · rw [hstats, count_submit h]
    exact hp.completed
  · rw [hstats, count_submit h]
    exact hp.failed

theorem accounted_start (i : Nat) : (p.start i).Accounted := by
  rcases start_cases p i with ⟨hsame, -⟩ | ⟨hqueued, -, hstart⟩
  · rw [hsame]
    exact hp
  · obtain ⟨job, hjob⟩ := exists_of_state? hqueued
    rw [hstart]
    -- a job that starts is pending before and after
    exact accounted_moved hp hjob rfl (Int.add_zero _).symm (Int.add_zero _).symm (Int.add_zero _).symm

theorem accounted_finish (i : Nat) : (p.finish i).Accounted := by
  unfold finish
  split
  · rename_i job hjob
    dsimp only
    split_ifs
    · exact accounted_moved hp hjob rfl rfl rfl (Int.add_zero _).symm
    · exact accounted_moved hp hjob rfl rfl (Int.add_zero _).symm rfl
  · exact hp

theorem accounted_cancel (i : Nat) : (p.cancel i).Accounted := by
  unfold cancel
  split_ifs with hqueued
  · obtain ⟨job, hjob⟩ := exists_of_state? (beq_iff_eq.1 hqueued)
    exact accounted_moved hp hjob rfl rfl (Int.add_zero _).symm rfl
  · exact hp

theorem step_accounted (s : Step) : (p.step s).Accounted := by
  cases s with
  | submit job =>
    cases hsubmit : p.submit job with
    | ok q => simpa only [step, hsubmit] using accounted_submit hp hsubmit
    | error cause => simpa only [step, hsubmit] using hp
  | start i => exact accounted_start hp i
  | finish i => exact accounted_finish hp i
  | cancel i => exact accounted_cancel hp i
  | close => exact ⟨hp.active, hp.completed, hp.failed⟩

theorem run_accounted (steps : List Step) : (p.run steps).Accounted := by
  induction steps generalizing p with
  | nil => exact hp
  | cons s steps ih => exact ih (step_accounted hp s)

end

/-! ## Submits -/

theorem submit_of_closed {p : Pool} (h : p.closed = true) (job : Job) : p.submit job = .error (.stopped "Pool") := by
  simp [submit, h]

theorem length_of_descriptors {p q : Pool} (h : q.descriptors = p.descriptors) : q.jobs.length = p.jobs.length := by
  rw [← length_descriptors, h, length_descriptors]

/-- a step adds a job exactly if it is a submit that is not refused -/
theorem length_step (p : Pool) (s : Step) : (p.step s).jobs.length = p.jobs.length + if p.accepts s then 1 else 0 := by
  cases s with
  | submit job =>
    cases hclosed : p.closed with
    | true => simp [step, accepts, submit_of_closed hclosed, hclosed]
    | false =>
      obtain ⟨q, hq⟩ := submit_of_open hclosed job
      obtain ⟨-, hjobs, -⟩ := submit_eq_ok hq
      simp [step, accepts, hq, hjobs, hclosed]
  | start i => exact length_of_descriptors (descriptors_start p i)
  | finish i => exact length_of_descriptors (descriptors_finish p i)
  | cancel i => exact length_of_descriptors (descriptors_cancel p i)
  | close => rfl

theorem length_run (p : Pool) (steps : List Step) : (p.run steps).jobs.length = p.jobs.length + p.accepted steps := by
  induction steps generalizing p with
  | nil => rfl
  | cons s steps ih =>
    have hrest := ih (p.step s)
    rw [length_step] at hrest
    rw [accepted, ← Nat.add_assoc]
    exact hrest

/-- a pool is closed exactly by the step that does so -/
theorem closed_step (p : Pool) (s : Step) : (p.step s).closed = (p.closed || s == .close) := by
  cases s with
  | submit job =>
    cases hclosed : p.closed with
    | true => simp [step, submit_of_closed hclosed, hclosed]
    | false =>
      obtain ⟨q, hq⟩ := submit_of_open hclosed job
      obtain ⟨-, -, -, hq'⟩ := submit_eq_ok hq
      simp [step, hq, hq', hclosed]
  | start i => simp [step]
  | finish i => simp [step]
  | cancel i => simp [step]
  | close => simp [step, close]

theorem closed_run (p : Pool) (steps : List Step) :
    (p.run steps).closed = true ↔ p.closed = true ∨ Step.close ∈ steps := by
  induction steps generalizing p with
  | nil => simp [run]
  | cons s steps ih =>
    have hrest := ih (p.step s)
    rw [closed_step, Bool.or_eq_true, beq_iff_eq] at hrest
    rw [List.mem_cons, ← or_assoc, eq_comm (a := Step.close)]
    exact hrest

/-! ## Whole runs -/

/-- **The counts of a pool.** After every run of a new pool, the active jobs are those that are neither finished nor
cancelled, the completed ones those that have returned, and the failed ones those that have raised or were cancelled;
together they are as many as the submits that were not refused. A cancellation that comes too late changes nothing, so
a job whose wait has expired while it ran counts by how it ends. A submit is refused exactly if the pool was closed
before, and then changes nothing. -/
theorem counts_along_run {settings : WorkerSettings} {p : Pool} (h : create settings = .ok p) (steps : List Step) :
    (p.run steps).stats.active = (p.run steps).jobs.countP (fun job => job.2.isPending) ∧
    (p.run steps).stats.completed = (p.run steps).jobs.countP (fun job => job.2.isReturned) ∧
    (p.run steps).stats.failed = (p.run steps).jobs.countP (fun job => job.2.isLost) ∧
    (p.run steps).stats.active + (p.run steps).stats.completed + (p.run steps).stats.failed = p.accepted steps ∧
    (∀ i, (p.run steps).state? i ≠ some .queued → (p.run steps).step (.cancel i) = p.run steps) ∧
    ∀ job, ((∃ cause, (p.run steps).submit job = .error cause) ↔ Step.close ∈ steps) ∧
      (Step.close ∈ steps → (p.run steps).step (.submit job) = p.run steps) := by
  have hnew : p.jobs = [] ∧ p.closed = false := by
    unfold create at h
    split_ifs at h
    cases h
    exact ⟨rfl, rfl⟩
  have hcounts := run_accounted (accounted_create h) steps
  have hclosed : (p.run steps).closed = true ↔ Step.close ∈ steps := by
    rw [closed_run, hnew.2]
    simp
  refine ⟨hcounts.active, hcounts.completed, hcounts.failed, ?_, ?_, ?_⟩
  · have hlength := length_run p steps
    have hsum := count_add_count (p.run steps)
    rw [hnew.1, List.length_nil, Nat.zero_add] at hlength
    rw [hcounts.active, hcounts.completed, hcounts.failed]
    omega
  · intro i hi
    rcases cancel_cases (p.run steps) i with ⟨hsame, -⟩ | ⟨hqueued, -⟩
    · exact hsame
    · exact absurd hqueued hi
  · intro job
    refine ⟨?_, ?_⟩
    · rw [← hclosed]
      constructor
      · rintro ⟨cause, hcause⟩
        by_contra hopen
        obtain ⟨q, hq⟩ := submit_of_open (by simpa using hopen) job
        rw [hq] at hcause
        cases hcause
      · intro hc
        exact ⟨_, submit_of_closed hc job⟩
    · intro hc
      rw [step, submit_of_closed (hclosed.2 hc)]

/-- a run with four workers: the first job is cancelled in vain while it runs and then returns, the second raises, the
third is cancelled in the queue, the fourth still runs, and a fifth comes after the pool was closed -/
def lateReturn : List Step :=
  [.submit ⟨true, false, .ofInt 7⟩, .submit ⟨false, false, .ofInt 2⟩, .submit ⟨true, false, .ofInt 1⟩,
    .submit ⟨true, true, .ofInt 9⟩, .start 0, .start 1, .cancel 0, .cancel 2, .finish 1, .start 3, .close,
    .submit ⟨true, false, .ofInt 1⟩, .finish 0]

theorem counts_of_lateReturn : create {} = .ok ⟨4, [], {}, false⟩ ∧
    ((run ⟨4, [], {}, false⟩ lateReturn).stats.active = 1 ∧ (run ⟨4, [], {}, false⟩ lateReturn).stats.completed = 1 ∧
      (run ⟨4, [], {}, false⟩ lateReturn).stats.failed = 2) ∧
    accepted ⟨4, [], {}, false⟩ lateReturn = 4 := by
  have hnew : create {} = .ok ⟨4, [], {}, false⟩ := rfl
  obtain ⟨hactive, hcompleted, hfailed, hsum, -⟩ := counts_along_run hnew lateReturn
  have hpending : (run ⟨4, [], {}, false⟩ lateReturn).jobs.countP (fun job => job.2.isPending) = 1 := by decide
  have hreturned : (run ⟨4, [], {}, false⟩ lateReturn).jobs.countP (fun job => job.2.isReturned) = 1 := by decide
  have hlost : (run ⟨4, [], {}, false⟩ lateReturn).jobs.countP (fun job => job.2.isLost) = 2 := by decide
  rw [hpending] at hactive
  rw [hreturned] at hcompleted
  rw [hlost] at hfailed
  refine ⟨hnew, ⟨hactive, hcompleted, hfailed⟩, ?_⟩
  rw [hactive, hcompleted, hfailed] at hsum
  omega

end Pool

end ClassNaming
