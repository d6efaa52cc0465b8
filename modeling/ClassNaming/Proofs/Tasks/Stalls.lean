/-
What is left of a pool by tasks that never end.

The workers of the pool take jobs from its queue in order. Some tasks hold their worker for ever; the others, once
started, end before the wait for them expires. A task is served exactly if it is of the second kind and fewer tasks of
the first kind than there are workers were handed over before it.

- `step_servedTo`, `run_servedTo`: the queue stays served along every prompt run of turns, and the slots are filled
  accordingly.
- `own_prompt`: the run of turns that is computed is prompt.
- `slots_by_stalls`: the slots of every prompt run, and of the computed one.
-/
import ClassNaming.Proofs.Tasks.Queue
import ClassNaming.Proofs.Tasks.Turns

namespace ClassNaming

variable {ι α : Type}

/-! ## Slots -/

namespace Orchestrator

theorem slot_timedOut (label : ι → String) (substitute : ι → TaskResult α → α) (item : ι)
    (settings : WorkerSettings) :
    slot label (some substitute) item (timedOut settings) = .ok (substitute item (timedOut settings)) :=
  rfl

end Orchestrator

namespace Plan

variable (plan : Plan ι α)

/-- a worker takes the first job of the queue, a holding job does not end, and a wait expires only when the job has not
started or holds its worker, and no worker is free while a job is in the queue -/
def Prompt (m : Stage α) : Turn → Prop
  | .caller => ∀ k, plan.waiting? m = some k → m.pool.hasEnded (plan.first + k) = false →
      m.pool.Exhausted (plan.first + k)
  | .start i => m.pool.InTurn i
  | .finish i => ∀ job, m.pool.descriptors[i]? = some job → job.holds = false

instance (m : Stage α) : ∀ t, Decidable (plan.Prompt m t)
  | .caller => inferInstanceAs (Decidable (∀ k ∈ plan.waiting? m, m.pool.hasEnded (plan.first + k) = false →
      m.pool.Exhausted (plan.first + k)))
  | .start i => inferInstanceAs (Decidable (m.pool.InTurn i))
  | .finish i => inferInstanceAs (Decidable (∀ job ∈ m.pool.descriptors[i]?, job.holds = false))

/-- the slot of a task over `w` workers: by its own outcome if it ends and few holding tasks stand before it -/
def slotBy (substitute : ι → TaskResult α → α) (w : Nat) (i : Nat) (task : ι × Work α) : α :=
  if task.2.holds = false ∧ (plan.work.take i).countP (·.2.holds) < w then
    Orchestrator.ownSlot substitute task.1 task.2.outcome
  else substitute task.1 (Orchestrator.timedOut plan.settings)

def slotsBy (substitute : ι → TaskResult α → α) (w : Nat) : List α :=
  plan.work.mapIdx (plan.slotBy substitute w)

variable {plan}
variable {substitute : ι → TaskResult α → α} {w : Nat}

theorem length_take_slotsBy {k : Nat} (h : k ≤ plan.work.length) :
    ((plan.slotsBy substitute w).take k).length = k := by
  simp [slotsBy, h]

theorem take_succ_slotsBy {k : Nat} {item : ι} {v : Work α} (h : plan.work[k]? = some (item, v)) :
    (plan.slotsBy substitute w).take (k + 1) =
      (plan.slotsBy substitute w).take k ++ [plan.slotBy substitute w k (item, v)] := by
  rw [List.take_add_one]
  simp [slotsBy, h]

/-- the waits for the first `k` tasks are over, and their slots are as they should be -/
structure ServedTo (plan : Plan ι α) (substitute : ι → TaskResult α → α) (w : Nat) (m : Stage α) (k : Nat) : Prop where
  aligned : plan.Aligned m
  served : m.pool.Served k
  workers : m.pool.workers = w
  jobs : m.pool.descriptors = (plan.work.take m.handed).map (·.2.job)
  slots : m.slots = .ok ((plan.slotsBy substitute w).take k)
  le : k ≤ plan.work.length
  waits : 0 < k → plan.work.length ≤ m.handed

theorem begin_servedTo {p : Pool} (hopen : p.closed = false) (hfirst : plan.first = p.jobs.length)
    (hfresh : p.jobs = []) : plan.ServedTo substitute p.workers (begin p) 0 where
  aligned := begin_aligned plan hopen hfirst
  served := Pool.served_of_nil hfresh
  workers := rfl
  jobs := by simp [begin, Pool.descriptors, hfresh]
  slots := by simp [begin]
  le := Nat.zero_le _
  waits := by simp

section Step

variable {m : Stage α} {k : Nat}

/-- the job of the awaited task, and the holding jobs before it -/
theorem ServedTo.awaited (hm : plan.ServedTo substitute w m k) (hall : plan.work.length ≤ m.handed) {item : ι}
    {v : Work α} (hnext : plan.work[k]? = some (item, v)) :
    m.pool.descriptors[k]? = some v.job ∧ m.pool.stalls k = (plan.work.take k).countP (·.2.holds) := by
  have hjobs : m.pool.descriptors = plan.work.map (·.2.job) := by
    rw [hm.jobs, List.take_of_length_le hall]
  refine ⟨by simp [hjobs, hnext], ?_⟩
  unfold Pool.stalls
  rw [hjobs, ← List.map_take, List.countP_map]
  rfl

theorem place_slotsBy (hfailure : plan.onFailure = some substitute) {item : ι} {v : Work α}
    (hnext : plan.work[k]? = some (item, v)) {r : TaskResult α}
    (hr : Orchestrator.slot plan.label (some substitute) item r = .ok (plan.slotBy substitute w k (item, v))) :
    plan.place ((plan.slotsBy substitute w).take k) item r = .ok ((plan.slotsBy substitute w).take (k + 1)) := by
  rw [Plan.place, hfailure, hr, take_succ_slotsBy hnext]
  rfl

/-- a prompt turn keeps the queue served and fills the next slot as it should be -/
theorem step_servedTo (hfirst : plan.first = 0) (hfailure : plan.onFailure = some substitute) {t : Turn}
    (hm : plan.ServedTo substitute w m k) (ht : plan.Prompt m t) :
    ∃ k', plan.ServedTo substitute w (plan.step m t) k' := by
  have haligned := step_aligned plan hm.aligned t
  have hdone : ((plan.slotsBy substitute w).take k).length = k := length_take_slotsBy hm.le
  have hdoes := step_does plan m t
  generalize plan.step m t = m' at hdoes haligned
  cases hdoes with
  | rests _ => exact ⟨k, hm⟩
  | refused _ _ hsubmit => exact absurd hsubmit hm.aligned.not_refused
  | @hands done item v q _ hnext hsubmit =>
    obtain ⟨hlt, -⟩ := List.getElem?_eq_some_iff.1 hnext
    obtain ⟨-, -, hworkers, -⟩ := Pool.submit_eq_ok hsubmit
    -- no wait is over while tasks are handed over
    obtain rfl : k = 0 := by
      by_contra hk
      have hall := hm.waits (Nat.pos_of_ne_zero hk)
      omega
    refine ⟨0, haligned, Pool.served_submit hm.served hsubmit, hworkers.trans hm.workers, ?_, hm.slots, hm.le, by simp⟩
    rw [Pool.descriptors_submit hsubmit, hm.jobs, List.take_add_one, hnext]
    simp
  | @takes done item v r hslots hall hnext hanswer =>
    obtain rfl : (plan.slotsBy substitute w).take k = done := by simpa [hm.slots] using hslots
    rw [hdone] at hnext hanswer
    obtain ⟨hjob, hstalls⟩ := hm.awaited hall hnext
    have hwhen := hm.aligned.answered k item v hnext
    rw [hanswer] at hwhen
    have hended : m.pool.hasEnded k = true := by
      by_contra hc
      simp [hfirst, hc] at hwhen
    obtain rfl : r = .ofOutcome v.outcome := by simpa [hfirst, hended] using hwhen
    have hserved := Pool.served_of_hasEnded hm.served hended hjob
    rw [hstalls, hm.workers] at hserved
    have hslot : plan.slotBy substitute w k (item, v) = Orchestrator.ownSlot substitute item v.outcome :=
      if_pos hserved
    refine ⟨k + 1, haligned, Pool.served_answered hm.served hended, hm.workers, hm.jobs, ?_, ?_, fun _ => hall⟩
    · refine place_slotsBy hfailure hnext ?_
      rw [Orchestrator.slot_ofOutcome, hslot]
    · exact (List.getElem?_eq_some_iff.1 hnext).1
  | @expires done item v hslots hall hnext hanswer =>
    obtain rfl : (plan.slotsBy substitute w).take k = done := by simpa [hm.slots] using hslots
    rw [hdone] at hnext hanswer haligned ⊢
    have hlt : k < plan.work.length := (List.getElem?_eq_some_iff.1 hnext).1
    obtain ⟨hjob, hstalls⟩ := hm.awaited hall hnext
    have hwhen := hm.aligned.answered k item v hnext
    rw [hanswer] at hwhen
    have hnot : m.pool.hasEnded k = false := by
      rw [← Bool.not_eq_true]
      intro hc
      simp [hfirst, hc] at hwhen
    have hwaiting : plan.waiting? m = some k := by
      simp [waiting?, hm.slots, hdone, hall, hlt]
    have hexp := ht k hwaiting
    rw [hfirst, Nat.zero_add] at hexp haligned ⊢
    have hstalled := Pool.stalled_of_expired hm.served (hexp hnot) hnot hjob
    rw [hstalls, hm.workers] at hstalled
    have hslot : plan.slotBy substitute w k (item, v) = substitute item (Orchestrator.timedOut plan.settings) :=
      if_neg hstalled
    refine ⟨k + 1, haligned, Pool.served_expired hm.served (hexp hnot), by simpa using hm.workers,
      by simpa using hm.jobs, ?_, hlt, fun _ => hall⟩
    refine place_slotsBy hfailure hnext ?_
    rw [Orchestrator.slot_timedOut, hslot]
  | starts i =>
    exact ⟨k, haligned, Pool.served_start hm.served ht, by simpa using hm.workers, by simpa using hm.jobs, hm.slots,
      hm.le, hm.waits⟩
  | finishes _ =>
    exact ⟨k, haligned, Pool.served_finish hm.served ht, by simpa using hm.workers, by simpa using hm.jobs, hm.slots,
      hm.le, hm.waits⟩
  | passes _ => exact ⟨k, hm⟩

end Step

theorem run_servedTo (hfirst : plan.first = 0) (hfailure : plan.onFailure = some substitute) {m : Stage α}
    {turns : List Turn} (hm : ∃ k, plan.ServedTo substitute w m k) (hturns : plan.Along plan.Prompt m turns) :
    ∃ k, plan.ServedTo substitute w (plan.run m turns) k := by
  have hstep : ∀ m t, (∃ k, plan.ServedTo substitute w m k) → plan.Prompt m t →
      ∃ k, plan.ServedTo substitute w (plan.step m t) k := by
    rintro m t ⟨k, hk⟩ ht
    exact step_servedTo hfirst hfailure hk ht
  exact run_invariant plan hstep hm hturns

/-- the slots at the end of a prompt run -/
theorem slots_of_prompt {p : Pool} (hopen : p.closed = false) (hfresh : p.jobs = []) (hfirst : plan.first = 0)
    (hfailure : plan.onFailure = some substitute) {turns : List Turn}
    (hcount : 2 * plan.work.length ≤ turns.count .caller) (hturns : plan.Along plan.Prompt (begin p) turns) :
    (plan.run (begin p) turns).slots = .ok (plan.slotsBy substitute p.workers) := by
  have hlength : plan.first = p.jobs.length := by rw [hfirst, hfresh, List.length_nil]
  obtain ⟨k, hk⟩ := run_servedTo hfirst hfailure ⟨0, begin_servedTo hopen hlength hfresh⟩ hturns
  have hend := remaining_run_begin plan p hcount
  rw [remaining, hk.slots] at hend
  simp only [length_take_slotsBy hk.le] at hend
  have hall : (plan.slotsBy substitute p.workers).length ≤ k := by
    rw [slotsBy, List.length_mapIdx]
    omega
  rw [hk.slots, List.take_of_length_le hall]

/-! ## The turns that are computed -/

section Own

variable (plan) {m : Stage α}

theorem handed_step_le (m : Stage α) (t : Turn) : (plan.step m t).handed ≤ m.handed + 1 := by
  have hdoes := step_does plan m t
  generalize plan.step m t = m' at hdoes
  cases hdoes <;> simp

/-- while tasks are handed over no wait ends -/
theorem along_handing {P : Stage α → Turn → Prop} (hP : ∀ m, plan.waiting? m = none → P m .caller) {n : Nat}
    (h : m.handed + n ≤ plan.work.length) : plan.Along P m (List.replicate n .caller) := by
  induction n generalizing m with
  | zero => trivial
  | succ n ih =>
    have hstep := handed_step_le plan m .caller
    have hnone : plan.waiting? m = none := by
      unfold waiting?
      split
      · rfl
      · rw [if_neg (by omega)]
    exact ⟨hP m hnone, ih (by omega)⟩

/-- the turns that are taken for a job when those before it have been looked at -/
theorem sweep_prompt {i : Nat} (hm : m.pool.Swept i) (hi : i < m.pool.descriptors.length) :
    plan.Along plan.Prompt m (settling m.pool.descriptors i) ∧
      (plan.run m (settling m.pool.descriptors i)).pool.Swept (i + 1) ∧
      (plan.run m (settling m.pool.descriptors i)).pool.descriptors = m.pool.descriptors := by
  have hjob := List.getElem?_eq_getElem hi
  generalize m.pool.descriptors[i] = job at hjob
  by_cases hholds : job.holds = true
  · have hturns : settling m.pool.descriptors i = [.start i] := by simp [settling, hjob, hholds]
    rw [hturns]
    exact ⟨⟨hm.inTurn, trivial⟩, hm.start_holding hjob hholds, Pool.descriptors_start _ _⟩
  · have hturns : settling m.pool.descriptors i = [.finish i, .start i, .finish i] := by
      simp [settling, hjob, hholds]
    have hends : ∀ other, m.pool.descriptors[i]? = some other → other.holds = false := by
      intro other hother
      rw [hjob] at hother
      cases hother
      exact Bool.not_eq_true _ ▸ hholds
    -- the job is in the queue, so the first turn does nothing
    have hfirst : plan.step m (.finish i) = m := by
      simp only [step]
      split
      · rename_i hrunning
        exact absurd hrunning hm.not_running
      · rfl
    rw [hturns]
    simp only [Along, run, List.foldl_cons, List.foldl_nil, hfirst, step_finish_pool, step_start]
    refine ⟨⟨hends, hm.inTurn, ?_, trivial⟩, hm.start_finish hjob, by simp⟩
    simpa [Prompt] using hends

theorem settling_prompt (hm : m.pool.Swept 0) {n : Nat} (hn : n ≤ m.pool.descriptors.length) :
    plan.Along plan.Prompt m ((List.range n).flatMap (settling m.pool.descriptors)) ∧
      (plan.run m ((List.range n).flatMap (settling m.pool.descriptors))).pool.Swept n ∧
      (plan.run m ((List.range n).flatMap (settling m.pool.descriptors))).pool.descriptors = m.pool.descriptors := by
  induction n with
  | zero => exact ⟨trivial, hm, rfl⟩
  | succ n ih =>
    obtain ⟨halong, hswept, hkept⟩ := ih (by omega)
    have hlt : n < m.pool.descriptors.length := hn
    rw [← hkept] at hlt
    obtain ⟨hprompt, hnext, hsame⟩ := sweep_prompt plan hswept hlt
    rw [hkept] at hprompt hnext hsame
    rw [List.range_succ, List.flatMap_append, List.flatMap_singleton, along_append, run_append]
    exact ⟨⟨halong, hprompt⟩, hnext, hsame⟩

/-- while waits end, jobs are cancelled at most -/
theorem along_waits {P : Stage α → Turn → Prop} {Q : Pool → Prop} (hcancel : ∀ p i, Q p → Q (p.cancel i))
    (hP : ∀ m, Q m.pool → P m .caller) (hpool : Q m.pool) (hall : plan.work.length ≤ m.handed) (n : Nat) :
    plan.Along P m (List.replicate n .caller) := by
  induction n generalizing m with
  | zero => trivial
  | succ n ih =>
    have hdoes := step_does plan m .caller
    have hnext : Q (plan.step m .caller).pool ∧ plan.work.length ≤ (plan.step m .caller).handed := by
      generalize plan.step m .caller = m' at hdoes
      cases hdoes with
      | rests _ => exact ⟨hpool, hall⟩
      | refused _ _ _ => exact ⟨hpool, hall⟩
      | hands _ hnext _ =>
        obtain ⟨hlt, -⟩ := List.getElem?_eq_some_iff.1 hnext
        omega
      | takes _ _ _ _ => exact ⟨hpool, hall⟩
      | expires _ _ _ _ => exact ⟨hcancel _ _ hpool, hall⟩
    exact ⟨hP m hpool, ih hnext.1 hnext.2⟩

/-- all tasks are handed over and the pool has settled -/
def settled (q : Pool) : Stage α :=
  plan.run (plan.queued q) ((List.range q.descriptors.length).flatMap (settling q.descriptors))

theorem settled_swept {p q : Pool} (hopen : p.closed = false) (hfresh : p.jobs = [])
    (hq : Orchestrator.submitAll p (plan.work.map (·.2)) = .ok q) :
    plan.Along plan.Prompt (plan.queued q) ((List.range q.descriptors.length).flatMap (settling q.descriptors)) ∧
      (plan.settled q).pool.Swept plan.work.length ∧
      (plan.settled q).pool.descriptors = plan.work.map (·.2.job) := by
  obtain ⟨queue, hqueue, hjobs⟩ := Orchestrator.submitAll_of_open hopen (plan.work.map (·.2))
  obtain rfl : queue = q := by simpa [hqueue] using hq
  rw [hfresh, List.nil_append, List.map_map] at hjobs
  have hqueued : ∀ j s, queue.state? j = some s → s = .queued := by
    intro j s hs
    obtain ⟨job, hjob⟩ := Pool.exists_of_state? hs
    have hmem := List.mem_of_getElem? hjob
    rw [hjobs] at hmem
    obtain ⟨task, -, htask⟩ := List.mem_map.1 hmem
    exact (congrArg Prod.snd htask).symm
  have hdesc : queue.descriptors = plan.work.map (·.2.job) := by
    unfold Pool.descriptors
    rw [hjobs, List.map_map]
    rfl
  have hlength : queue.descriptors.length = plan.work.length := by rw [hdesc, List.length_map]
  have hswept : (plan.queued queue).pool.Swept 0 := Pool.swept_of_queued hqueued
  obtain ⟨hprompt, hend, hkept⟩ := settling_prompt plan hswept (Nat.le_refl _)
  exact ⟨hprompt, hlength ▸ hend, hkept.trans hdesc⟩

theorem length_settled {q : Pool} (hjobs : (plan.settled q).pool.descriptors = plan.work.map (·.2.job)) :
    (plan.settled q).pool.jobs.length = plan.work.length := by
  rw [← Pool.length_descriptors, hjobs, List.length_map]

theorem handed_settled (q : Pool) : (plan.settled q).handed = plan.work.length :=
  (run_settling plan (m := plan.queued q) rfl (List.range q.descriptors.length)).2.1

/-- the turns of the map that is computed are prompt -/
theorem own_prompt {p q : Pool} (hopen : p.closed = false) (hfresh : p.jobs = [])
    (hq : Orchestrator.submitAll p (plan.work.map (·.2)) = .ok q) :
    plan.Along plan.Prompt (begin p) (ownTurns plan.work.length q.descriptors) := by
  obtain ⟨hprompt, hend, hjobs⟩ := settled_swept plan hopen hfresh hq
  have hrest := hend.exhausted (Nat.le_of_eq (length_settled plan hjobs))
  rw [ownTurns, along_append, along_append, run_append, run_begin plan hq]
  refine ⟨⟨along_handing plan ?_ (by simp [begin]), hprompt⟩, ?_⟩
  · intro m hnone k hk
    rw [hnone] at hk
    cases hk
  · refine along_waits plan (Q := fun r => ∀ k, r.Exhausted k) ?_ ?_ hrest
      (Nat.le_of_eq (handed_settled plan q).symm) _
    · exact fun r i hr => Pool.exhausted_cancel hr i
    · exact fun m hm k _ _ => hm _

end Own

end Plan

namespace Orchestrator

variable {o : Orchestrator} {p : Pool}

/-- the slots of items over a pool of `w` workers: by its own outcome if its task ends and fewer tasks than workers
before it do not, and else by a result that says that its wait has expired -/
def slotsAmong (settings : WorkerSettings) (w : Nat) (run : ι → Work α) (substitute : ι → TaskResult α → α)
    (items : List ι) : List α :=
  items.mapIdx fun i item =>
    if (run item).holds = false ∧ (items.take i).countP (fun earlier => (run earlier).holds) < w then
      ownSlot substitute item (run item).outcome
    else substitute item (timedOut settings)

theorem slotsBy_plan (o : Orchestrator) (p : Pool) (run : ι → Work α) (label : ι → String)
    (substitute : ι → TaskResult α → α) (items : List ι) (w : Nat) :
    (o.plan p run label (some substitute) items).slotsBy substitute w =
      slotsAmong o.settings w run substitute items := by
  have hearlier : ∀ i, ((items.map fun item => (item, run item)).take i).countP (·.2.holds) =
      (items.take i).countP fun earlier => (run earlier).holds := by
    intro i
    rw [← List.map_take, List.countP_map]
    rfl
  apply List.ext_getElem?
  intro i
  rw [Plan.slotsBy, slotsAmong, List.getElem?_mapIdx, List.getElem?_mapIdx]
  cases hitem : items[i]? with
  | none => simp [plan, hitem]
  | some item => simp [plan, hitem, Plan.slotBy, hearlier]

theorem mapUnder_prompt (h : o.Threads p) (hfresh : p.jobs = []) {run : ι → Work α} {label : ι → String}
    {substitute : ι → TaskResult α → α} {items : List ι} {turns : List Turn}
    (hcount : 2 * items.length ≤ turns.count .caller)
    (hturns : (o.plan p run label (some substitute) items).Along (o.plan p run label (some substitute) items).Prompt
      (Plan.begin p) turns) : o.mapUnder turns run label (some substitute) items =
        some (.ok (slotsAmong o.settings p.workers run substitute items)) := by
  by_cases hitems : items = []
  · simp [hitems, mapUnder, slotsAmong]
  have hlength : (o.plan p run label (some substitute) items).work.length = items.length := List.length_map _
  have hfirst : (o.plan p run label (some substitute) items).first = 0 := by simp [plan, hfresh]
  rw [← hlength] at hcount
  rw [mapUnder_eq h hitems (hlength ▸ hcount), ← slotsBy_plan o p run label substitute items]
  exact congrArg some (Plan.slots_of_prompt h.isOpen hfresh hfirst rfl hcount hturns)

/-- **Tasks that never end and the size of the pool.** A fresh pool serves its queue in order, a worker that is free
takes the next job, and each task, once started, either ends before the wait for it expires or never ends. Whatever the
order of turns, the slot of an item comes from its own outcome exactly if its task ends and fewer such tasks as never
end than there are workers stand before it; every other slot is substituted for a wait that has expired. The map that is
computed is one of these runs. -/
theorem slots_by_stalls (h : o.Threads p) (hfresh : p.jobs = []) (run : ι → Work α) (label : ι → String)
    (substitute : ι → TaskResult α → α) (items : List ι) {turns : List Turn}
    (hcount : 2 * items.length ≤ turns.count .caller)
    (hturns : (o.plan p run label (some substitute) items).Along (o.plan p run label (some substitute) items).Prompt
      (Plan.begin p) turns) :
    o.mapUnder turns run label (some substitute) items =
        some (.ok (slotsAmong o.settings p.workers run substitute items)) ∧
      (o.map run label (some substitute) items).1 = .ok (slotsAmong o.settings p.workers run substitute items) := by
  refine ⟨mapUnder_prompt h hfresh hcount hturns, ?_⟩
  have hown := fun q => Plan.own_prompt (q := q) (o.plan p run label (some substitute) items) h.isOpen hfresh
  exact map_eq_of_along h hown fun turns => mapUnder_prompt h hfresh

/-- two workers and five tasks, of which the first and the fourth never end and the second fails: the third is served
after the second, and the fifth waits in vain -/
theorem two_stalls_of_two_workers :
    let o : Orchestrator := ⟨{ workers := .whole 2 }, none, false⟩
    let p : Pool := ⟨2, [], {}, false⟩
    let run : Nat → Work Nat := fun n =>
      { outcome := if n = 1 then .error (.stopped "Pool") else .ok n, holds := n = 0 || n = 3 }
    let substitute : Nat → TaskResult Nat → Nat := fun n r => if r.status = .timedOut then 100 + n else 200 + n
    let turns : List Turn := [.caller, .caller, .start 0, .start 1, .caller, .finish 1, .start 2, .caller, .caller,
      .finish 2, .start 3, .caller, .caller, .caller, .caller, .caller]
    o.Threads p ∧
      (o.plan p run toString (some substitute) (List.range 5)).Along
        (o.plan p run toString (some substitute) (List.range 5)).Prompt (Plan.begin p) turns ∧
      o.mapUnder turns run toString (some substitute) (List.range 5) = some (.ok [100, 201, 2, 103, 104]) ∧
      (o.map run toString (some substitute) (List.range 5)).1 = .ok [100, 201, 2, 103, 104] := by
  intro o p run substitute turns
  have hthreads : o.Threads p := ⟨rfl, rfl, rfl, rfl⟩
  have hprompt : (o.plan p run toString (some substitute) (List.range 5)).Along
      (o.plan p run toString (some substitute) (List.range 5)).Prompt (Plan.begin p) turns := by
    decide
  have hslots := slots_by_stalls hthreads rfl run toString substitute (List.range 5) (by decide) hprompt
  exact ⟨hthreads, hprompt, hslots⟩

end Orchestrator

end ClassNaming
