/-
Maps over a pool in which every task is done in time come to what the tasks done in order come to.

The workers start and finish the jobs in any order. As long as the caller ends no wait before the job has ended, each
slot is filled by the outcome of its own item, and the first failure that the caller meets is the first one in the order
of the items, whichever came first in time.

- `mapInOrder_substituted`, `mapInOrder_returned`, `mapInOrder_failed`: what tasks done in order come to.
- `step_completed`, `run_completed`: the slots filled so far, followed by those of the other tasks done in order, stay the
  same.
- `own_answered`: the map that is computed is in time if no task holds its worker.
- `in_time_as_in_order`: every map in time, and the computed one.
-/
import ClassNaming.Proofs.Tasks.Stalls

namespace ClassNaming

variable {ι α : Type}

namespace Orchestrator

/-! ## Tasks done in order -/

theorem mapInOrder_substituted (label : ι → String) (substitute : ι → TaskResult α → α) (work : List (ι × Work α)) :
    mapInOrder label (some substitute) work = .ok (work.map fun task => ownSlot substitute task.1 task.2.outcome) := by
  induction work with
  | nil => rfl
  | cons task work ih =>
    simp only [mapInOrder, slot_ofOutcome, ih, List.map_cons]
    rfl

theorem mapInOrder_cons_ok (label : ι → String) (item : ι) {w : Work α} {a : α} (h : w.outcome = .ok a)
    (work : List (ι × Work α)) :
    mapInOrder label none ((item, w) :: work) = (mapInOrder label none work).map (a :: ·) := by
  have hslot : slot label none item (.ofOutcome w.outcome) = .ok a := by
    rw [h]
    rfl
  simp only [mapInOrder, hslot]
  rfl

/-- without a substitute, tasks that all return come to their values -/
theorem mapInOrder_returned (label : ι → String) {work : List (ι × Work α)} {values : List α}
    (h : work.map (·.2.outcome) = values.map .ok) : mapInOrder label none work = .ok values := by
  induction work generalizing values with
  | nil =>
    obtain rfl : values = [] := by simpa using h.symm
    rfl
  | cons task work ih =>
    obtain ⟨item, w⟩ := task
    cases values with
    | nil => simp at h
    | cons a values =>
      obtain ⟨hfirst, hrest⟩ := List.cons.inj h
      rw [mapInOrder_cons_ok label item hfirst, ih hrest]
      rfl

/-- and the first failure in their order fails the map -/
theorem mapInOrder_failed (label : ι → String) {before after : List (ι × Work α)} {item : ι} {w : Work α}
    {cause : Fault} (hbefore : ∀ task ∈ before, ∃ a, task.2.outcome = .ok a) (h : w.outcome = .error cause) :
    mapInOrder label none (before ++ (item, w) :: after) =
      .error (.taskFailed (label item) (cause.label ++ ": " ++ cause.message)) := by
  induction before with
  | nil =>
    have hslot : slot (α := α) label none item (.ofOutcome w.outcome) =
        .error (.taskFailed (label item) (cause.label ++ ": " ++ cause.message)) := by
      rw [h]
      rfl
    simp only [List.nil_append, mapInOrder, hslot]
    rfl
  | cons task before ih =>
    obtain ⟨a, ha⟩ := hbefore task (List.mem_cons_self ..)
    rw [List.cons_append, mapInOrder_cons_ok label task.1 ha, ih fun t ht => hbefore t (List.mem_cons_of_mem _ ht)]
    rfl

end Orchestrator

/-! ## Slots in time -/

namespace Plan

variable (plan : Plan ι α)

/-- a wait ends only when its job has ended -/
def Answered (m : Stage α) (t : Turn) : Prop :=
  t = .caller → ∀ k ∈ plan.waiting? m, m.pool.hasEnded (plan.first + k) = true

instance (m : Stage α) (t : Turn) : Decidable (plan.Answered m t) :=
  inferInstanceAs (Decidable (t = .caller → ∀ k ∈ plan.waiting? m, m.pool.hasEnded (plan.first + k) = true))

/-- the slots filled so far, followed by those of the other tasks done in order -/
def completed (m : Stage α) : Except Fault (List α) :=
  match m.slots with
  | .error cause => .error cause
  | .ok done =>
    (Orchestrator.mapInOrder plan.label plan.onFailure (plan.work.drop done.length)).map (done ++ ·)

variable {plan}

theorem completed_place {m : Stage α} {done : List α} {item : ι} {w : Work α}
    (hslots : m.slots = .ok done) (hnext : plan.work[done.length]? = some (item, w)) :
    plan.completed { m with slots := plan.place done item (.ofOutcome w.outcome) } = plan.completed m := by
  have hdrop : plan.work.drop done.length = (item, w) :: plan.work.drop (done.length + 1) := by
    obtain ⟨hlt, hget⟩ := List.getElem?_eq_some_iff.1 hnext
    rw [List.drop_eq_getElem_cons hlt, hget]
  simp only [completed, hslots, hdrop, Orchestrator.mapInOrder, place]
  cases Orchestrator.slot plan.label plan.onFailure item (.ofOutcome w.outcome) with
  | error cause => rfl
  | ok a =>
    simp only [Except.map, List.length_append, List.length_singleton, bind, Except.bind]
    cases Orchestrator.mapInOrder plan.label plan.onFailure (plan.work.drop (done.length + 1)) with
    | error cause => rfl
    | ok values => simp [pure, Except.pure]

/-- a turn in time changes nothing in what the map comes to -/
theorem step_completed {m : Stage α} {t : Turn} (hm : plan.Aligned m) (ht : plan.Answered m t) :
    plan.completed (plan.step m t) = plan.completed m := by
  have hdoes := step_does plan m t
  generalize plan.step m t = m' at hdoes
  cases hdoes with
  | rests _ => rfl
  | refused _ _ hsubmit => exact absurd hsubmit hm.not_refused
  | hands _ _ _ => rfl
  | @takes done item v r hslots _ hnext hanswer =>
    have hwhen := hm.answered _ item v hnext
    rw [hanswer] at hwhen
    obtain ⟨-, rfl⟩ : m.pool.hasEnded (plan.first + done.length) = true ∧ r = .ofOutcome v.outcome := by
      simpa using hwhen
    exact completed_place hslots hnext
  | @expires done item v hslots hall hnext hanswer =>
    have hlt := (List.getElem?_eq_some_iff.1 hnext).1
    have hwaiting : plan.waiting? m = some done.length := by simp [waiting?, hslots, hall, hlt]
    have hended := ht rfl _ hwaiting
    have hwhen := hm.answered _ item v hnext
    rw [hanswer, hended] at hwhen
    cases hwhen
  | starts _ => rfl
  | finishes _ => rfl
  | passes _ => rfl

theorem run_completed {m : Stage α} {turns : List Turn} (hm : plan.Aligned m)
    (hturns : plan.Along plan.Answered m turns) : plan.completed (plan.run m turns) = plan.completed m := by
  have hstep : ∀ n t, plan.Aligned n ∧ plan.completed n = plan.completed m → plan.Answered n t →
      plan.Aligned (plan.step n t) ∧ plan.completed (plan.step n t) = plan.completed m := by
    rintro n t ⟨hn, hsame⟩ ht
    exact ⟨step_aligned plan hn t, (step_completed hn ht).trans hsame⟩
  exact (run_invariant plan hstep ⟨hm, rfl⟩ hturns).2

/-- once the caller has no step left nothing is to be added -/
theorem slots_eq_completed {m : Stage α} (h : plan.remaining m = 0) : m.slots = plan.completed m := by
  unfold completed
  unfold remaining at h
  cases hslots : m.slots with
  | error cause => rfl
  | ok done =>
    simp only [hslots] at h
    have hnone : plan.work.drop done.length = [] := List.drop_of_length_le (by omega)
    simp [hnone, Orchestrator.mapInOrder, Except.map]

/-- the slots at the end of a run in time -/
theorem slots_of_answered {p : Pool} (hopen : p.closed = false) (hfirst : plan.first = p.jobs.length)
    {turns : List Turn} (hcount : 2 * plan.work.length ≤ turns.count .caller)
    (hturns : plan.Along plan.Answered (begin p) turns) :
    (plan.run (begin p) turns).slots = Orchestrator.mapInOrder plan.label plan.onFailure plan.work := by
  rw [slots_eq_completed (remaining_run_begin plan p hcount), run_completed (begin_aligned plan hopen hfirst) hturns]
  cases h : Orchestrator.mapInOrder plan.label plan.onFailure plan.work <;> simp [completed, begin, h, Except.map]

/-! ## The turns that are computed -/

theorem along_of_forall {P : Stage α → Turn → Prop} {turns : List Turn} (h : ∀ t ∈ turns, ∀ m, P m t) (m : Stage α) :
    plan.Along P m turns := by
  induction turns generalizing m with
  | nil => trivial
  | cons t turns ih =>
    exact ⟨h t (List.mem_cons_self ..) m, ih (fun u hu => h u (List.mem_cons_of_mem _ hu)) _⟩

theorem ne_caller_of_mem_settling {jobs : List Job} {i : Nat} {t : Turn} (h : t ∈ settling jobs i) : t ≠ .caller := by
  rintro rfl
  unfold settling at h
  split_ifs at h <;> simp at h

variable (plan) in
/-- the turns of the map that is computed are in time if no task holds its worker -/
theorem own_answered {p q : Pool} (hopen : p.closed = false) (hfresh : p.jobs = []) (hworkers : 0 < p.workers)
    (hfirst : plan.first = 0) (hends : ∀ task ∈ plan.work, task.2.holds = false)
    (hq : Orchestrator.submitAll p (plan.work.map (·.2)) = .ok q) :
    plan.Along plan.Answered (begin p) (ownTurns plan.work.length q.descriptors) := by
  obtain ⟨-, hswept, hjobs⟩ := settled_swept plan hopen hfresh hq
  have hlength := length_settled plan hjobs
  have hsame : (plan.settled q).pool.workers = p.workers := by
    rw [settled, ← run_begin plan hq, workers_run, workers_run]
    rfl
  have hfree : ∀ job ∈ (plan.settled q).pool.descriptors, job.holds = false := by
    intro job hjob
    rw [hjobs] at hjob
    obtain ⟨task, htask, rfl⟩ := List.mem_map.1 hjob
    exact hends task htask
  have hended : ∀ k < plan.work.length, (plan.settled q).pool.hasEnded (plan.first + k) = true := by
    intro k hk
    rw [hfirst, Nat.zero_add]
    exact hswept.hasEnded (Nat.le_of_eq hlength) (hsame ▸ hworkers) hfree (hlength ▸ hk)
  rw [ownTurns, along_append, along_append, run_append, run_begin plan hq]
  refine ⟨⟨along_handing plan ?_ (by simp [begin]), along_of_forall ?_ _⟩, ?_⟩
  · intro m hnone _ k hk
    rw [hnone] at hk
    cases hk
  · intro t ht m hcaller
    obtain ⟨i, -, hi⟩ := List.mem_flatMap.1 ht
    exact absurd hcaller (ne_caller_of_mem_settling hi)
  · refine along_waits plan (Q := fun r => ∀ k < plan.work.length, r.hasEnded (plan.first + k) = true) ?_ ?_ hended
      (Nat.le_of_eq (handed_settled plan q).symm) _
    · exact fun r i hr k hk => (Pool.hasEnded_cancel r i _).trans (hr k hk)
    · exact fun m hm _ k hk => hm k (lt_of_waiting? plan hk)

end Plan

/-! ## The threaded map and the one in order -/

namespace Orchestrator

variable {o d : Orchestrator} {p : Pool} {run : ι → Work α} {label : ι → String}
  {onFailure : Option (ι → TaskResult α → α)} {items : List ι}

theorem map_inOrder (hrunning : d.stopped = false) (hdisabled : d.isEnabled = false) :
    (d.map run label onFailure items).1 = mapInOrder label onFailure (items.map fun item => (item, run item)) := by
  cases items with
  | nil => rfl
  | cons item items => simp [map, hrunning, hdisabled]

theorem mapUnder_answered (h : o.Threads p) {turns : List Turn} (hcount : 2 * items.length ≤ turns.count .caller)
    (hturns : (o.plan p run label onFailure items).Along (o.plan p run label onFailure items).Answered
      (Plan.begin p) turns) : o.mapUnder turns run label onFailure items =
        some (mapInOrder label onFailure (items.map fun item => (item, run item))) := by
  by_cases hitems : items = []
  · simp [hitems, mapUnder, mapInOrder]
  have hlength : (o.plan p run label onFailure items).work.length = items.length := List.length_map _
  rw [mapUnder_eq h hitems hcount]
  rw [← hlength] at hcount
  exact congrArg some (Plan.slots_of_answered h.isOpen rfl hcount hturns)

/-- **A map over a pool in which every task is done in time is the map in order.** Whatever the order in which the
workers start and finish the jobs, the outcome is that of an orchestrator whose pool is switched off. With a substitute,
each slot has the value of its own item or what is substituted for its failure, in the order of the items. Without one,
the values come as they are, and the failure that is reported is the first in the order of the items. The map that is
computed is in time if no task holds its worker. -/
theorem in_time_as_in_order (h : o.Threads p) (hrunning : d.stopped = false) (hdisabled : d.isEnabled = false)
    (run : ι → Work α) (label : ι → String) (onFailure : Option (ι → TaskResult α → α)) (items : List ι) :
    (∀ turns : List Turn, 2 * items.length ≤ turns.count .caller →
      (o.plan p run label onFailure items).Along (o.plan p run label onFailure items).Answered (Plan.begin p) turns →
      o.mapUnder turns run label onFailure items = some (d.map run label onFailure items).1) ∧
    (p.jobs = [] → 0 < p.workers → (∀ item ∈ items, (run item).holds = false) →
      (o.map run label onFailure items).1 = (d.map run label onFailure items).1) ∧
    (∀ substitute, onFailure = some substitute → (d.map run label onFailure items).1 =
      .ok (items.map fun item => ownSlot substitute item (run item).outcome)) ∧
    (onFailure = none →
      (∀ values, items.map (fun item => (run item).outcome) = values.map .ok →
        (d.map run label onFailure items).1 = .ok values) ∧
      ∀ before item after cause, items = before ++ item :: after →
        (∀ earlier ∈ before, ∃ a, (run earlier).outcome = .ok a) → (run item).outcome = .error cause →
        (d.map run label onFailure items).1 =
          .error (.taskFailed (label item) (cause.label ++ ": " ++ cause.message))) := by
  rw [map_inOrder hrunning hdisabled]
  refine ⟨fun turns => mapUnder_answered h, ?_, ?_, ?_⟩
  · intro hfresh hworkers hends
    have hown := fun q => Plan.own_answered (q := q) (o.plan p run label onFailure items) h.isOpen hfresh hworkers
      (by simp [plan, hfresh]) (by simpa [plan] using hends)
    exact map_eq_of_along h hown fun turns => mapUnder_answered h
  · rintro substitute rfl
    rw [mapInOrder_substituted, List.map_map]
    rfl
  · rintro rfl
    constructor
    · intro values hvalues
      refine mapInOrder_returned label ?_
      rw [List.map_map]
      exact hvalues
    · rintro before item after cause rfl hbefore hcause
      rw [List.map_append, List.map_cons]
      refine mapInOrder_failed label ?_ hcause
      intro task htask
      obtain ⟨earlier, hearlier, rfl⟩ := List.mem_map.1 htask
      exact hbefore earlier hearlier

/-- three tasks that end in the opposite order: the last one fails first, but the failure of the second is reported -/
theorem second_failure_first :
    let o : Orchestrator := ⟨{}, none, false⟩
    let d : Orchestrator := ⟨{ enabled := .bool false }, none, false⟩
    let p : Pool := ⟨4, [], {}, false⟩
    let run : Nat → Work Nat := fun n =>
      { outcome := if n = 0 then .ok n else .error (.taskFailed (toString n) "late") }
    let turns : List Turn := [.caller, .caller, .caller, .start 2, .start 0, .start 1, .finish 2, .finish 1, .finish 0,
      .caller, .caller, .caller]
    o.Threads p ∧ d.stopped = false ∧ d.isEnabled = false ∧
      (o.plan p run toString none (List.range 3)).Along (o.plan p run toString none (List.range 3)).Answered
        (Plan.begin p) turns ∧
      o.mapUnder turns run toString none (List.range 3) =
        some (.error (.taskFailed "1" "TaskFailedError: Task 1 failed: late")) ∧
      (o.map run toString none (List.range 3)).1 =
        .error (.taskFailed "1" "TaskFailedError: Task 1 failed: late") := by
  intro o d p run turns
  have hthreads : o.Threads p := ⟨rfl, rfl, rfl, rfl⟩
  have hturns : (o.plan p run toString none (List.range 3)).Along (o.plan p run toString none (List.range 3)).Answered
      (Plan.begin p) turns := by
    decide
  obtain ⟨hunder, hcomputed, -, hfailed⟩ :=
    in_time_as_in_order hthreads (d := d) rfl rfl run toString none (List.range 3)
  have hfirst := (hfailed rfl).2 [0] 1 [2] (.taskFailed "1" "late") rfl (by simp [run]) rfl
  exact ⟨hthreads, rfl, rfl, hturns, (hunder turns (by decide) hturns).trans (congrArg some hfirst),
    (hcomputed rfl (by decide) (by simp [run])).trans hfirst⟩

end Orchestrator

end ClassNaming
