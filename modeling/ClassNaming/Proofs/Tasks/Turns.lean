/-
Maps over a pool as runs of turns.

While a map goes on, its caller and the workers take turns, in any order. The caller hands over one task after the
other, and then ends one wait after the other, in the order of the items: with the answer of the task if it is there,
and else because the wait has expired. A worker starts a queued job or finishes a running one; with finishing it gives
the answer of its task.

- `Does`, `step_does`: all that a turn can do.
- `remaining_run_le`: each turn of the caller brings the map closer to its end, which comes after two of them for each
  item at the latest.
- `run_aligned`: an answer is there exactly if the job has ended, and is then the outcome of the task with its number.
- `mapUnder_own`, `map_eq_of_along`: the map as it is computed is one of these runs.
-/
import ClassNaming.Proofs.Tasks.JobStates
import ClassNaming.Tasks.Orchestrator

namespace ClassNaming

variable {ι α : Type}

/-- whose turn it is: the caller's, or that of a worker, which starts or finishes a job -/
inductive Turn where
  | caller
  | start (i : Nat)
  | finish (i : Nat)
deriving DecidableEq, Repr

/-- what a map is asked for: tasks with their items, and the number of the job that the first task becomes -/
structure Plan (ι α : Type) where
  settings : WorkerSettings
  label : ι → String
  onFailure : Option (ι → TaskResult α → α)
  work : List (ι × Work α)
  first : Nat

/-- how far a map is: its pool, the number of tasks handed over, the answers by the number of the job, and the slots
filled so far or the fault that has ended it -/
structure Stage (α : Type) where
  pool : Pool
  handed : Nat
  answers : Nat → Option (TaskResult α)
  slots : Except Fault (List α)

namespace Plan

variable (plan : Plan ι α)

/-- nothing is handed over yet -/
def begin (p : Pool) : Stage α := ⟨p, 0, fun _ => none, .ok []⟩

/-- the answer of the worker that has done a job -/
def answer (i : Nat) : Option (TaskResult α) :=
  if plan.first ≤ i then (plan.work[i - plan.first]?).map fun task => .ofOutcome task.2.outcome else none

/-- the slots with one more, for the result of an item -/
def place (done : List α) (item : ι) (r : TaskResult α) : Except Fault (List α) :=
  (Orchestrator.slot plan.label plan.onFailure item r).map fun a => done ++ [a]

/-- the caller hands over the next task or, when all are handed over, ends its wait for the next result -/
def advance (m : Stage α) : Stage α :=
  match m.slots with
  | .error _ => m
  | .ok done =>
    match plan.work[m.handed]? with
    | some (_, w) =>
      match m.pool.submit w.job with
      | .error cause => { m with slots := .error cause }
      | .ok q => { m with pool := q, handed := m.handed + 1 }
    | none =>
      match plan.work[done.length]? with
      | none => m
      | some (item, _) =>
        match m.answers (plan.first + done.length) with
        | some r => { m with slots := plan.place done item r }
        | none =>
          { m with
            pool := m.pool.cancel (plan.first + done.length)
            slots := plan.place done item (Orchestrator.timedOut plan.settings) }

/-- the map after a turn -/
def step (m : Stage α) : Turn → Stage α
  | .caller => plan.advance m
  | .start i => { m with pool := m.pool.start i }
  | .finish i =>
    match m.pool.state? i with
    | some .running =>
      { m with
        pool := m.pool.finish i
        answers := fun j => if j = i then plan.answer i else m.answers j }
    | _ => m

def run (m : Stage α) (turns : List Turn) : Stage α := turns.foldl plan.step m

theorem run_append (m : Stage α) (before after : List Turn) :
    plan.run m (before ++ after) = plan.run (plan.run m before) after :=
  List.foldl_append

/-- what holds of every turn of a run and the map in which it is taken -/
def Along (P : Stage α → Turn → Prop) : Stage α → List Turn → Prop
  | _, [] => True
  | m, t :: turns => P m t ∧ Along P (plan.step m t) turns

instance instDecidableAlong (P : Stage α → Turn → Prop) [∀ m t, Decidable (P m t)] :
    ∀ m turns, Decidable (plan.Along P m turns)
  | _, [] => .isTrue trivial
  | m, t :: turns =>
    have := instDecidableAlong P (plan.step m t) turns
    inferInstanceAs (Decidable (P m t ∧ plan.Along P (plan.step m t) turns))

theorem along_append (P : Stage α → Turn → Prop) (m : Stage α) (before after : List Turn) :
    plan.Along P m (before ++ after) ↔ plan.Along P m before ∧ plan.Along P (plan.run m before) after := by
  induction before generalizing m with
  | nil => simp [Along, run]
  | cons t before ih =>
    rw [List.cons_append, Along, Along, ih, and_assoc]
    rfl

/-- the number of the task for whose result the caller waits -/
def waiting? (m : Stage α) : Option Nat :=
  match m.slots with
  | .error _ => none
  | .ok done => if plan.work.length ≤ m.handed ∧ done.length < plan.work.length then some done.length else none

theorem lt_of_waiting? {m : Stage α} {k : Nat} (h : plan.waiting? m = some k) : k < plan.work.length := by
  unfold waiting? at h
  split at h
  · cases h
  · split_ifs at h with hmore
    cases h
    exact hmore.2

/-- the number of steps that the caller has left -/
def remaining (m : Stage α) : Nat :=
  match m.slots with
  | .error _ => 0
  | .ok done => (plan.work.length - m.handed) + (plan.work.length - done.length)

/-- the slots once the caller has no step left -/
def result? (m : Stage α) : Option (Except Fault (List α)) :=
  if plan.remaining m = 0 then some m.slots else none

/-! ## What a turn does -/

/-- all that a turn can do -/
inductive Does (m : Stage α) : Turn → Stage α → Prop where
  | rests (hdone : plan.remaining m = 0) : Does m .caller m
  | refused {done : List α} {item : ι} {w : Work α} {cause : Fault} (hslots : m.slots = .ok done)
      (hnext : plan.work[m.handed]? = some (item, w)) (hsubmit : m.pool.submit w.job = .error cause) :
      Does m .caller { m with slots := .error cause }
  | hands {done : List α} {item : ι} {w : Work α} {q : Pool} (hslots : m.slots = .ok done)
      (hnext : plan.work[m.handed]? = some (item, w)) (hsubmit : m.pool.submit w.job = .ok q) :
      Does m .caller { m with pool := q, handed := m.handed + 1 }
  | takes {done : List α} {item : ι} {w : Work α} {r : TaskResult α} (hslots : m.slots = .ok done)
      (hall : plan.work.length ≤ m.handed) (hnext : plan.work[done.length]? = some (item, w))
      (hanswer : m.answers (plan.first + done.length) = some r) :
      Does m .caller { m with slots := plan.place done item r }
  | expires {done : List α} {item : ι} {w : Work α} (hslots : m.slots = .ok done)
      (hall : plan.work.length ≤ m.handed) (hnext : plan.work[done.length]? = some (item, w))
      (hanswer : m.answers (plan.first + done.length) = none) :
      Does m .caller { m with
        pool := m.pool.cancel (plan.first + done.length)
        slots := plan.place done item (Orchestrator.timedOut plan.settings) }
  | starts (i : Nat) : Does m (.start i) { m with pool := m.pool.start i }
  | finishes {i : Nat} (hrunning : m.pool.state? i = some .running) :
      Does m (.finish i) { m with
        pool := m.pool.finish i
        answers := fun j => if j = i then plan.answer i else m.answers j }
  | passes {i : Nat} (hnot : m.pool.state? i ≠ some .running) : Does m (.finish i) m

theorem advance_does (m : Stage α) : plan.Does m .caller (plan.advance m) := by
  unfold advance
  split
  · rename_i cause hslots
    have hdone : plan.remaining m = 0 := by simp [remaining, hslots]
    exact .rests hdone
  · rename_i done hslots
    split
    · rename_i item w hnext
      split
      · rename_i cause hsubmit
        exact .refused hslots hnext hsubmit
      · rename_i q hsubmit
        exact .hands hslots hnext hsubmit
    · rename_i hnext
      have hall : plan.work.length ≤ m.handed := List.getElem?_eq_none_iff.1 hnext
      split
      · rename_i hwait
        have hlast : plan.work.length ≤ done.length := List.getElem?_eq_none_iff.1 hwait
        have hdone : plan.remaining m = 0 := by
          simp only [remaining, hslots]
          omega
        exact .rests hdone
      · rename_i item w hwait
        split
        · rename_i r hanswer
          exact .takes hslots hall hwait hanswer
        · rename_i hanswer
          exact .expires hslots hall hwait hanswer

theorem step_does (m : Stage α) (t : Turn) : plan.Does m t (plan.step m t) := by
  cases t with
  | caller => exact advance_does plan m
  | start i => exact .starts i
  | finish i =>
    simp only [step]
    split
    · rename_i hrunning
      exact .finishes hrunning
    · rename_i hnot
      exact .passes hnot

/-- the workers stay as many as they are -/
theorem workers_step (m : Stage α) (t : Turn) : (plan.step m t).pool.workers = m.pool.workers := by
  have hdoes := step_does plan m t
  generalize plan.step m t = m' at hdoes
  cases hdoes with
  | hands _ _ hsubmit => exact (Pool.submit_eq_ok hsubmit).2.2.1
  | expires _ _ _ _ => exact Pool.workers_cancel _ _
  | starts _ => exact Pool.workers_start _ _
  | finishes _ => exact Pool.workers_finish _ _
  | _ => rfl

theorem workers_run (m : Stage α) (turns : List Turn) : (plan.run m turns).pool.workers = m.pool.workers := by
  induction turns generalizing m with
  | nil => rfl
  | cons t turns ih => exact (ih (plan.step m t)).trans (workers_step plan m t)

/-! ## The end of a map -/

theorem remaining_place_le (m : Stage α) {done : List α} (hall : plan.work.length ≤ m.handed) (item : ι)
    (r : TaskResult α) (q : Pool) :
    plan.remaining { m with pool := q, slots := plan.place done item r } ≤ plan.work.length - (done.length + 1) := by
  unfold remaining place
  cases Orchestrator.slot plan.label plan.onFailure item r with
  | error cause => exact Nat.zero_le _
  | ok a =>
    simp only [Except.map, List.length_append, List.length_cons, List.length_nil]
    omega

/-- a turn of the caller brings the map closer to its end, and no other turn takes it back -/
theorem remaining_step_le (m : Stage α) (t : Turn) :
    plan.remaining (plan.step m t) ≤ plan.remaining m - if t = .caller then 1 else 0 := by
  have hwaits : ∀ {done : List α} {item : ι} {w : Work α}, m.slots = .ok done → plan.work.length ≤ m.handed →
      plan.work[done.length]? = some (item, w) →
      plan.work.length - (done.length + 1) ≤ plan.remaining m - 1 := by
    intro done item w hslots hall hnext
    obtain ⟨hlt, -⟩ := List.getElem?_eq_some_iff.1 hnext
    simp only [remaining, hslots]
    omega
  have hdoes := step_does plan m t
  generalize plan.step m t = m' at hdoes
  cases hdoes with
  | rests hdone => simp [hdone]
  | refused hslots hnext hsubmit => exact Nat.zero_le _
  | hands hslots hnext hsubmit =>
    obtain ⟨hlt, -⟩ := List.getElem?_eq_some_iff.1 hnext
    simp only [remaining, hslots, if_true]
    omega
  | takes hslots hall hnext hanswer =>
    exact Nat.le_trans (remaining_place_le plan m hall _ _ m.pool) (hwaits hslots hall hnext)
  | expires hslots hall hnext hanswer =>
    exact Nat.le_trans (remaining_place_le plan m hall _ _ _) (hwaits hslots hall hnext)
  | starts i => simp [remaining]
  | finishes hrunning => simp [remaining]
  | passes hnot => simp

theorem remaining_run_le (m : Stage α) (turns : List Turn) :
    plan.remaining (plan.run m turns) ≤ plan.remaining m - turns.count .caller := by
  induction turns generalizing m with
  | nil => exact Nat.le_refl _
  | cons t turns ih =>
    have hstep := remaining_step_le plan m t
    have hrest := ih (plan.step m t)
    rw [List.count_cons]
    simp only [run, List.foldl_cons, beq_iff_eq] at hrest ⊢
    omega

/-- two turns of the caller for each task are enough -/
theorem remaining_run_begin (p : Pool) {turns : List Turn} (h : 2 * plan.work.length ≤ turns.count .caller) :
    plan.remaining (plan.run (begin p) turns) = 0 := by
  have hle := remaining_run_le plan (begin p) turns
  have hstart : plan.remaining (begin p) = 2 * plan.work.length := by
    simp only [remaining, begin, List.length_nil]
    omega
  omega

/-- what each turn keeps, of those that are taken, holds to the end of a run -/
theorem run_invariant {P : Stage α → Turn → Prop} {I : Stage α → Prop}
    (hstep : ∀ m t, I m → P m t → I (plan.step m t)) {m : Stage α} {turns : List Turn} (hm : I m)
    (hturns : plan.Along P m turns) : I (plan.run m turns) := by
  induction turns generalizing m with
  | nil => exact hm
  | cons t turns ih => exact ih (hstep m t hm hturns.1) hturns.2

/-! ## Answers and jobs -/

/-- the pool takes jobs and has those of the tasks handed over, and an answer is there exactly if the job has ended: the
outcome of the task with its number -/
structure Aligned (m : Stage α) : Prop where
  isOpen : m.pool.closed = false
  count : m.pool.jobs.length = plan.first + m.handed
  handed_le : m.handed ≤ plan.work.length
  answered : ∀ k item w, plan.work[k]? = some (item, w) → m.answers (plan.first + k) =
    if m.pool.hasEnded (plan.first + k) then some (.ofOutcome w.outcome) else none

theorem begin_aligned {p : Pool} (hopen : p.closed = false) (hfirst : plan.first = p.jobs.length) :
    plan.Aligned (begin p) where
  isOpen := hopen
  count := hfirst.symm
  handed_le := Nat.zero_le _
  answered := by
    intro k item w _
    have hnone : p.state? (plan.first + k) = none := by
      rw [Pool.state?_eq_none_iff, hfirst]
      exact Nat.le_add_right _ _
    simp [begin, Pool.hasEnded, hnone]

/-- a pool that takes jobs refuses none -/
theorem Aligned.not_refused {m : Stage α} (hm : plan.Aligned m) {job : Job} {cause : Fault} :
    m.pool.submit job ≠ .error cause := by
  intro hsubmit
  obtain ⟨q, hq⟩ := Pool.submit_of_open hm.isOpen job
  rw [hsubmit] at hq
  cases hq

theorem step_aligned {m : Stage α} (hm : plan.Aligned m) (t : Turn) : plan.Aligned (plan.step m t) := by
  have hlength : ∀ {q : Pool}, q.descriptors = m.pool.descriptors → q.jobs.length = plan.first + m.handed := by
    intro q hq
    rw [← Pool.length_descriptors, hq, Pool.length_descriptors, hm.count]
  have hdoes := step_does plan m t
  generalize plan.step m t = m' at hdoes
  cases hdoes with
  | rests hdone => exact hm
  | refused hslots hnext hsubmit => exact absurd hsubmit hm.not_refused
  | hands hslots hnext hsubmit =>
    obtain ⟨hlt, -⟩ := List.getElem?_eq_some_iff.1 hnext
    obtain ⟨-, hjobs, -, hclosed⟩ := Pool.submit_eq_ok hsubmit
    refine ⟨hclosed.trans hm.isOpen, ?_, hlt, ?_⟩
    · simp only [hjobs, List.length_append, List.length_cons, List.length_nil, hm.count]
      omega
    · intro k item w hk
      rw [Pool.hasEnded_submit hsubmit]
      exact hm.answered k item w hk
  | takes hslots hall hnext hanswer => exact ⟨hm.isOpen, hm.count, hm.handed_le, hm.answered⟩
  | expires hslots hall hnext hanswer =>
    refine ⟨by simpa using hm.isOpen, hlength (by simp), hm.handed_le, ?_⟩
    intro k item w hk
    rw [Pool.hasEnded_cancel]
    exact hm.answered k item w hk
  | starts i =>
    refine ⟨by simpa using hm.isOpen, hlength (by simp), hm.handed_le, ?_⟩
    intro k item w hk
    rw [Pool.hasEnded_start]
    exact hm.answered k item w hk
  | @finishes i hrunning =>
    refine ⟨by simpa using hm.isOpen, hlength (by simp), hm.handed_le, ?_⟩
    intro k item w hk
    rw [Pool.hasEnded_finish hrunning]
    by_cases hi : plan.first + k = i
    · -- the worker answers with the outcome of its own task
      simp [← hi, answer, hk]
    · simpa [hi] using hm.answered k item w hk
  | passes hnot => exact hm

theorem run_aligned {m : Stage α} (hm : plan.Aligned m) (turns : List Turn) : plan.Aligned (plan.run m turns) := by
  induction turns generalizing m with
  | nil => exact hm
  | cons t turns ih => exact ih (step_aligned plan hm t)

/-! ## Waits -/

theorem await_eq (settings : WorkerSettings) (p : Pool) (i : Nat) (w : Work α) :
    Orchestrator.await settings p i w =
      if p.hasEnded i then (.ofOutcome w.outcome, p) else (Orchestrator.timedOut settings, p.cancel i) := by
  unfold Orchestrator.await Pool.hasEnded
  cases p.state? i with
  | none => rfl
  | some s => cases s <;> rfl

/-- the end of a wait is that of the wait for the job with the number of the task -/
theorem advance_waiting {m : Stage α} (hm : plan.Aligned m) (hall : m.handed = plan.work.length) {done : List α}
    (hslots : m.slots = .ok done) {item : ι} {w : Work α} (hnext : plan.work[done.length]? = some (item, w)) :
    plan.advance m = { m with
      pool := (Orchestrator.await plan.settings m.pool (plan.first + done.length) w).2
      slots := plan.place done item (Orchestrator.await plan.settings m.pool (plan.first + done.length) w).1 } := by
  have hhanded : plan.work[m.handed]? = none := by
    rw [hall]
    exact List.getElem?_eq_none (Nat.le_refl _)
  have hanswer := hm.answered _ item w hnext
  rw [await_eq]
  by_cases hended : m.pool.hasEnded (plan.first + done.length) = true
  · simp only [hended, if_true] at hanswer ⊢
    simp only [advance, hslots, hhanded, hnext, hanswer]
  · simp only [hended] at hanswer ⊢
    simp only [advance, hslots, hhanded, hnext, hanswer]
    rfl

theorem run_error {m : Stage α} {cause : Fault} (h : m.slots = .error cause) (n : Nat) :
    (plan.run m (List.replicate n .caller)).slots = .error cause := by
  induction n with
  | zero => exact h
  | succ n ih =>
    have hstep : plan.step m .caller = m := by simp [step, advance, h]
    rw [List.replicate_succ, run, List.foldl_cons, hstep]
    exact ih

theorem run_waits {m : Stage α} (hm : plan.Aligned m) (hall : m.handed = plan.work.length) {done : List α}
    (hslots : m.slots = .ok done) {rest : List (ι × Work α)} (hrest : plan.work.drop done.length = rest) :
    (plan.run m (List.replicate rest.length .caller)).slots =
      (Orchestrator.collect plan.settings plan.label plan.onFailure m.pool (plan.first + done.length) rest).1.map
        (done ++ ·) := by
  induction rest generalizing m done with
  | nil => simp [run, hslots, Orchestrator.collect, Except.map]
  | cons task rest ih =>
    obtain ⟨item, w⟩ := task
    have hnext : plan.work[done.length]? = some (item, w) := by
      rw [← List.head?_drop, hrest, List.head?_cons]
    have hstep := advance_waiting plan hm hall hslots hnext
    have hnew := step_aligned plan hm .caller
    rw [List.length_cons, List.replicate_succ, run, List.foldl_cons]
    change (plan.run (plan.advance m) _).slots = _
    change plan.Aligned (plan.advance m) at hnew
    rw [hstep] at hnew ⊢
    rw [Orchestrator.collect]
    generalize Orchestrator.await plan.settings m.pool (plan.first + done.length) w = waited at hnew ⊢
    obtain ⟨r, q⟩ := waited
    cases hslot : Orchestrator.slot plan.label plan.onFailure item r with
    | error cause =>
      have hplace : plan.place done item r = .error cause := by simp [place, hslot, Except.map]
      simp only [hslot, Except.map]
      exact run_error plan hplace _
    | ok a =>
      have hplace : plan.place done item r = .ok (done ++ [a]) := by simp [place, hslot, Except.map]
      have hlater : plan.work.drop (done ++ [a]).length = rest := by
        rw [List.length_append, List.length_singleton, ← List.drop_drop, hrest]
        rfl
      simp only [hslot]
      refine (ih hnew hall hplace hlater).trans ?_
      have hindex : plan.first + (done ++ [a]).length = plan.first + done.length + 1 := by simp [Nat.add_assoc]
      rw [hindex]
      dsimp only
      cases (Orchestrator.collect plan.settings plan.label plan.onFailure q (plan.first + done.length + 1) rest).1 with
      | error cause => rfl
      | ok results => simp [Except.map]

theorem run_handing {m : Stage α} {done : List α} (hslots : m.slots = .ok done) {rest : List (ι × Work α)}
    (hrest : plan.work.drop m.handed = rest) {q : Pool}
    (hsubmit : Orchestrator.submitAll m.pool (rest.map (·.2)) = .ok q) :
    plan.run m (List.replicate rest.length .caller) = { m with pool := q, handed := m.handed + rest.length } := by
  induction rest generalizing m with
  | nil =>
    obtain rfl : m.pool = q := by simpa [Orchestrator.submitAll] using hsubmit
    rfl
  | cons task rest ih =>
    obtain ⟨item, w⟩ := task
    have hnext : plan.work[m.handed]? = some (item, w) := by
      rw [← List.head?_drop, hrest, List.head?_cons]
    cases hfirst : m.pool.submit w.job with
    | error cause => simp [Orchestrator.submitAll, hfirst, bind, Except.bind] at hsubmit
    | ok p =>
      have hlater : Orchestrator.submitAll p (rest.map (·.2)) = .ok q := by
        simpa [Orchestrator.submitAll, hfirst, bind, Except.bind] using hsubmit
      have hstep : plan.step m .caller = { m with pool := p, handed := m.handed + 1 } := by
        simp [step, advance, hslots, hnext, hfirst]
      have hdrop : plan.work.drop (m.handed + 1) = rest := by
        rw [← List.drop_drop, hrest]
        rfl
      rw [List.length_cons, List.replicate_succ, run, List.foldl_cons, hstep]
      refine (ih (m := { m with pool := p, handed := m.handed + 1 }) hslots hdrop hlater).trans ?_
      simp only [Stage.mk.injEq, and_true, true_and]
      omega

end Plan

/-! ## The map that is computed -/

/-- the turns in which every job that can be started is started, and finished if it does not hold its worker, in the
order in which the jobs came -/
def settling (jobs : List Job) (i : Nat) : List Turn :=
  if (jobs[i]?).any (·.holds) then [.start i] else [.finish i, .start i, .finish i]

/-- first all tasks are handed over, then the pool settles, and then all waits end -/
def ownTurns (n : Nat) (jobs : List Job) : List Turn :=
  List.replicate n .caller ++ (List.range jobs.length).flatMap (settling jobs) ++ List.replicate n .caller

theorem Pool.finishFree_eq (p : Pool) (i : Nat) :
    p.finishFree i = if (p.descriptors[i]?).any (·.holds) then p else p.finish i := by
  unfold finishFree
  split
  · rename_i job s hjob
    simp [getElem?_descriptors hjob]
  · rename_i hnone
    have hnot : p.state? i ≠ some .running := by simp [state?, hnone]
    simp [descriptors, hnone, finish_of_not_running hnot]

namespace Plan

variable (plan : Plan ι α)

@[simp] theorem step_finish_pool (m : Stage α) (i : Nat) : (plan.step m (.finish i)).pool = m.pool.finish i := by
  simp only [step]
  split
  · rfl
  · rename_i hnot
    rw [Pool.finish_of_not_running hnot]

@[simp] theorem step_finish_handed (m : Stage α) (i : Nat) : (plan.step m (.finish i)).handed = m.handed := by
  simp only [step]
  split <;> rfl

@[simp] theorem step_finish_slots (m : Stage α) (i : Nat) : (plan.step m (.finish i)).slots = m.slots := by
  simp only [step]
  split <;> rfl

@[simp] theorem step_start (m : Stage α) (i : Nat) : plan.step m (.start i) = { m with pool := m.pool.start i } := rfl

theorem run_settling {m : Stage α} {jobs : List Job} (hjobs : m.pool.descriptors = jobs) (is : List Nat) :
    (plan.run m (is.flatMap (settling jobs))).pool =
      is.foldl (fun p i => ((p.finishFree i).start i).finishFree i) m.pool ∧
    (plan.run m (is.flatMap (settling jobs))).handed = m.handed ∧
    (plan.run m (is.flatMap (settling jobs))).slots = m.slots := by
  induction is generalizing m with
  | nil => exact ⟨rfl, rfl, rfl⟩
  | cons i is ih =>
    have hone : (plan.run m (settling jobs i)).pool = ((m.pool.finishFree i).start i).finishFree i ∧
        (plan.run m (settling jobs i)).handed = m.handed ∧ (plan.run m (settling jobs i)).slots = m.slots := by
      by_cases hholds : (jobs[i]?).any (·.holds) = true
      · simp [settling, hholds, run, Pool.finishFree_eq, hjobs]
      · simp [settling, hholds, run, Pool.finishFree_eq, hjobs]
    obtain ⟨hpool, hhanded, hslots⟩ := hone
    have hkept : (plan.run m (settling jobs i)).pool.descriptors = jobs := by
      rw [hpool]
      by_cases hholds : (jobs[i]?).any (·.holds) = true <;> simp [Pool.finishFree_eq, hjobs, hholds]
    obtain ⟨ihpool, ihhanded, ihslots⟩ := ih hkept
    rw [List.flatMap_cons, run, List.foldl_append]
    refine ⟨?_, ihhanded.trans hhanded, ihslots.trans hslots⟩
    rw [List.foldl_cons, ← hpool]
    exact ihpool

/-- all tasks are handed over and none is started -/
def queued (q : Pool) : Stage α := ⟨q, plan.work.length, fun _ => none, .ok []⟩

theorem run_begin {p q : Pool} (hq : Orchestrator.submitAll p (plan.work.map (·.2)) = .ok q) :
    plan.run (begin p) (List.replicate plan.work.length .caller) = plan.queued q := by
  refine (run_handing plan (m := begin p) rfl rfl hq).trans ?_
  simp [begin, queued]

/-- what is collected from the pool after it has settled is what the turns of the computed map come to -/
theorem run_own {p q : Pool} (hopen : p.closed = false) (hfirst : plan.first = p.jobs.length)
    (hq : Orchestrator.submitAll p (plan.work.map (·.2)) = .ok q) :
    (plan.run (begin p) (ownTurns plan.work.length q.descriptors)).slots =
      (Orchestrator.collect plan.settings plan.label plan.onFailure q.settle plan.first plan.work).1 := by
  have hbegun : plan.Aligned (plan.queued q) := by
    rw [← run_begin plan hq]
    exact run_aligned plan (begin_aligned plan hopen hfirst) _
  have hjobs : (plan.queued q).pool.descriptors = q.descriptors := rfl
  obtain ⟨hpool, hall, hslots⟩ := run_settling plan hjobs (List.range q.descriptors.length)
  have hsettled : (plan.run (plan.queued q) ((List.range q.descriptors.length).flatMap (settling q.descriptors))).pool =
      q.settle := by
    refine hpool.trans ?_
    rw [Pool.length_descriptors]
    rfl
  have hwaits := run_waits plan (run_aligned plan hbegun _) hall hslots List.drop_zero
  rw [hsettled] at hwaits
  rw [ownTurns, run_append, run_append, run_begin plan hq]
  refine hwaits.trans ?_
  generalize (Orchestrator.collect _ _ _ _ _ _).1 = results
  cases results <;> rfl

end Plan

namespace Orchestrator

/-- work is taken and spread over the pool `p`, which takes jobs -/
structure Threads (o : Orchestrator) (p : Pool) : Prop where
  running : o.stopped = false
  enabled : o.isEnabled = true
  pool : o.startedPool = .ok p
  isOpen : p.closed = false

/-- the plan of a map over a pool -/
def plan (o : Orchestrator) (p : Pool) (run : ι → Work α) (label : ι → String)
    (onFailure : Option (ι → TaskResult α → α)) (items : List ι) : Plan ι α :=
  ⟨o.settings, label, onFailure, items.map fun item => (item, run item), p.jobs.length⟩

/-- apply `run` to each item, with the caller and the workers of the pool taking turns as given; there is no result if
the caller is not done with them -/
def mapUnder (o : Orchestrator) (turns : List Turn) (run : ι → Work α) (label : ι → String)
    (onFailure : Option (ι → TaskResult α → α)) (items : List ι) : Option (Except Fault (List α)) :=
  if items.isEmpty then some (.ok [])
  else if o.stopped then some (.error (.stopped "Orchestrator"))
  else if !o.isEnabled then some (mapInOrder label onFailure (items.map fun item => (item, run item)))
  else match o.startedPool with
  | .error cause => some (.error cause)
  | .ok p =>
    let plan := o.plan p run label onFailure items
    plan.result? (plan.run (Plan.begin p) turns)

/-- what stands in the slot of an item by its own outcome -/
def ownSlot (substitute : ι → TaskResult α → α) (item : ι) : Except Fault α → α
  | .ok a => a
  | .error cause => substitute item ⟨.failed, none, some (cause.label ++ ": " ++ cause.message)⟩

theorem slot_ofOutcome (label : ι → String) (substitute : ι → TaskResult α → α) (item : ι) (outcome : Except Fault α) :
    slot label (some substitute) item (.ofOutcome outcome) = .ok (ownSlot substitute item outcome) := by
  cases outcome <;> rfl

variable {o : Orchestrator} {p : Pool}

theorem submitAll_of_open (h : p.closed = false) (work : List (Work α)) :
    ∃ q, submitAll p work = .ok q ∧ q.jobs = p.jobs ++ work.map fun w => (w.job, .queued) := by
  induction work generalizing p with
  | nil => exact ⟨p, rfl, by simp⟩
  | cons w work ih =>
    obtain ⟨q, hq⟩ := Pool.submit_of_open h w.job
    obtain ⟨-, hjobs, -, hclosed⟩ := Pool.submit_eq_ok hq
    obtain ⟨r, hr, hrest⟩ := ih (hclosed.trans h)
    refine ⟨r, by simpa [submitAll, hq, bind, Except.bind] using hr, ?_⟩
    rw [hrest, hjobs]
    simp

variable {run : ι → Work α} {label : ι → String} {onFailure : Option (ι → TaskResult α → α)} {items : List ι}

theorem mapUnder_eq (h : o.Threads p) (hitems : items ≠ []) {turns : List Turn}
    (hturns : 2 * items.length ≤ turns.count .caller) : o.mapUnder turns run label onFailure items =
      some ((o.plan p run label onFailure items).run (Plan.begin p) turns).slots := by
  have hlength : (o.plan p run label onFailure items).work.length = items.length := List.length_map _
  rw [← hlength] at hturns
  simp only [mapUnder, List.isEmpty_eq_false_iff.2 hitems, h.running, h.enabled, h.pool, Bool.not_true,
    Bool.false_eq_true, if_false]
  rw [Plan.result?, if_pos (Plan.remaining_run_begin _ p hturns)]

theorem map_eq (h : o.Threads p) (hitems : items ≠ []) {q : Pool}
    (hq : submitAll p (items.map run) = .ok q) : (o.map run label onFailure items).1 =
      (collect o.settings label onFailure q.settle p.jobs.length (items.map fun item => (item, run item))).1 := by
  have hwork : (items.map fun item => (item, run item)).map (·.2) = items.map run := by simp
  simp only [map, List.isEmpty_eq_false_iff.2 hitems, h.running, h.enabled, h.pool, hwork, hq, Bool.not_true,
    Bool.false_eq_true, if_false]

theorem count_ownTurns (n : Nat) (jobs : List Job) : 2 * n ≤ (ownTurns n jobs).count .caller := by
  simp only [ownTurns, List.count_append, List.count_replicate_self]
  omega

theorem plan_tasks (o : Orchestrator) (p : Pool) (run : ι → Work α) (label : ι → String)
    (onFailure : Option (ι → TaskResult α → α)) (items : List ι) :
    (o.plan p run label onFailure items).work.map (·.2) = items.map run := by
  simp [plan, Function.comp_def]

/-- the turns of the map that is computed -/
theorem ownTurns_plan (o : Orchestrator) (run : ι → Work α) (label : ι → String)
    (onFailure : Option (ι → TaskResult α → α)) (items : List ι) {q : Pool}
    (hjobs : q.jobs = p.jobs ++ (items.map run).map fun w => (w.job, .queued)) :
    ownTurns (o.plan p run label onFailure items).work.length q.descriptors =
      ownTurns items.length (p.descriptors ++ items.map fun item => (run item).job) := by
  have hlength : (o.plan p run label onFailure items).work.length = items.length := List.length_map _
  have hqueue : q.descriptors = p.descriptors ++ items.map fun item => (run item).job := by
    simp [Pool.descriptors, hjobs]
  rw [hlength, hqueue]

/-- **The map that is computed is a run of turns:** the one in which all tasks are handed over, then the pool settles,
and then the waits end. -/
theorem mapUnder_own (h : o.Threads p) :
    o.mapUnder (ownTurns items.length (p.descriptors ++ items.map fun item => (run item).job)) run label onFailure
      items = some (o.map run label onFailure items).1 := by
  by_cases hitems : items = []
  · simp [hitems, mapUnder, map]
  obtain ⟨q, hq, hjobs⟩ := submitAll_of_open h.isOpen (items.map run)
  rw [mapUnder_eq h hitems (count_ownTurns _ _), map_eq h hitems hq, ← ownTurns_plan o run label onFailure items hjobs]
  exact congrArg some (Plan.run_own _ h.isOpen rfl (plan_tasks o p run label onFailure items ▸ hq))

/-- what every run with some property comes to, the computed map comes to if its run has the property -/
theorem map_eq_of_along (h : o.Threads p) {P : Stage α → Turn → Prop} {results : Except Fault (List α)}
    (hown : ∀ q, submitAll p ((o.plan p run label onFailure items).work.map (·.2)) = .ok q →
      (o.plan p run label onFailure items).Along P (Plan.begin p)
        (ownTurns (o.plan p run label onFailure items).work.length q.descriptors))
    (hall : ∀ turns : List Turn, 2 * items.length ≤ turns.count .caller →
      (o.plan p run label onFailure items).Along P (Plan.begin p) turns →
      o.mapUnder turns run label onFailure items = some results) :
    (o.map run label onFailure items).1 = results := by
  obtain ⟨q, hq, hjobs⟩ := submitAll_of_open h.isOpen (items.map run)
  have halong := hown q (plan_tasks o p run label onFailure items ▸ hq)
  rw [ownTurns_plan o run label onFailure items hjobs] at halong
  have hresults := hall _ (count_ownTurns _ _) halong
  rw [mapUnder_own h] at hresults
  exact Option.some.inj hresults

end Orchestrator

end ClassNaming
