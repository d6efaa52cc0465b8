/-
A queue served in order by workers of which some never come free.

The workers of a pool take its jobs in the order in which they came. A holding job keeps its worker once it runs; every
other job ends. The waits for the jobs end one after the other: with the end of the job, or by cancelling it.

- `Served`, with one lemma for each step of a pool: a job that was started has fewer holding jobs than workers before
  it, and one that was cancelled has at least as many.
- `served_of_hasEnded`, `stalled_of_expired`: which of the two a wait comes to.
- `Swept`, `Swept.exhausted`: a pool whose jobs are looked at one after the other comes to rest.
-/
import ClassNaming.Proofs.Tasks.JobStates

namespace ClassNaming

namespace Pool

/-! ## Counting busy workers -/

/-- the number of jobs before the given one that hold their worker -/
def stalls (p : Pool) (i : Nat) : Nat := (p.descriptors.take i).countP (·.holds)

theorem stalls_congr {p q : Pool} (h : q.descriptors = p.descriptors) (i : Nat) : q.stalls i = p.stalls i := by
  unfold stalls
  rw [h]

theorem stalls_submit {p q : Pool} {job : Job} (h : p.submit job = .ok q) {i : Nat} (hi : i ≤ p.jobs.length) :
    q.stalls i = p.stalls i := by
  unfold stalls
  rw [descriptors_submit h, List.take_append_of_le_length (by rwa [length_descriptors])]

/-- if the holding jobs before a job run, except for those that have too many holding jobs before them, then as many
workers are busy as there are holding jobs or workers -/
theorem min_stalls_le {p : Pool} {w j : Nat} (h : ∀ i < j, ∀ job s, p.jobs[i]? = some (job, s) → job.holds = true →
    s = .running ∨ w ≤ p.stalls i) : min w (p.stalls j) ≤ (p.jobs.take j).countP isRunning := by
  induction j with
  | zero => simp [stalls]
  | succ j ih =>
    have hbefore := ih fun i hi => h i (Nat.lt_succ_of_lt hi)
    have hstalls : p.stalls (j + 1) = p.stalls j + (p.descriptors[j]?).toList.countP (·.holds) := by
      unfold stalls
      rw [List.take_add_one, List.countP_append]
    rw [hstalls, List.take_add_one, List.countP_append]
    cases hjob : p.jobs[j]? with
    | none => simpa [descriptors, hjob] using hbefore
    | some entry =>
      obtain ⟨job, s⟩ := entry
      rw [getElem?_descriptors hjob]
      by_cases hholds : job.holds = true
      · rcases h j (Nat.lt_succ_self j) job s hjob hholds with hrunning | hfull
        · simp only [Option.toList_some, List.countP_singleton, hholds, hrunning, isRunning, beq_self_eq_true, if_true]
          omega
        · simp only [Option.toList_some, List.countP_singleton, hholds, if_true]
          omega
      · simp only [Option.toList_some, List.countP_singleton, hholds]
        simp only [Bool.false_eq_true, if_false, Nat.add_zero]
        omega

theorem countP_take_le_busy (p : Pool) (j : Nat) : (p.jobs.take j).countP isRunning ≤ p.busy :=
  (List.take_sublist j p.jobs).countP_le

/-- if only holding jobs before a job run, no more workers are busy than there are such jobs -/
theorem busy_le_stalls {p : Pool} {k : Nat} (h : ∀ i job, p.jobs[i]? = some (job, .running) →
    i < k ∧ job.holds = true) : p.busy ≤ p.stalls k := by
  have hlater : (p.jobs.drop k).countP isRunning = 0 := by
    rw [List.countP_eq_zero]
    rintro ⟨job, s⟩ hmem hrunning
    obtain ⟨i, hi⟩ := List.mem_iff_getElem?.1 hmem
    obtain rfl : s = .running := by simpa [isRunning] using hrunning
    rw [List.getElem?_drop] at hi
    have hlt := (h _ job hi).1
    omega
  have hearlier : (p.jobs.take k).countP isRunning ≤ (p.jobs.take k).countP (·.1.holds) := by
    apply List.countP_mono_left
    rintro ⟨job, s⟩ hmem hrunning
    obtain ⟨i, hi⟩ := List.mem_iff_getElem?.1 hmem
    obtain rfl : s = .running := by simpa [isRunning] using hrunning
    rw [List.getElem?_take] at hi
    split_ifs at hi
    exact (h i job hi).2
  have hstalls : p.stalls k = (p.jobs.take k).countP (·.1.holds) := by
    unfold stalls descriptors
    rw [← List.map_take, List.countP_map]
    rfl
  calc p.busy = (p.jobs.take k ++ p.jobs.drop k).countP isRunning := by rw [List.take_append_drop]; rfl
    _ = (p.jobs.take k).countP isRunning := by rw [List.countP_append, hlater, Nat.add_zero]
    _ ≤ p.stalls k := by rw [hstalls]; exact hearlier

/-! ## A queue served in order -/

/-- the state of a pool in which the waits for the first `k` jobs are over -/
structure Served (p : Pool) (k : Nat) : Prop where
  /-- a job is taken from the queue after those before it -/
  inOrder : ∀ i j s, i < j → p.state? i = some .queued → p.state? j = some s → s = .queued
  /-- a holding job does not end -/
  held : ∀ i job, p.descriptors[i]? = some job → job.holds = true → p.hasEnded i = false
  /-- a job whose wait is over is not in the queue any more -/
  waited : ∀ i < k, p.state? i ≠ some .queued
  /-- and runs only if it holds its worker -/
  passed : ∀ i < k, p.state? i = some .running → ∀ job, p.descriptors[i]? = some job → job.holds = true
  cancelled : ∀ i, p.state? i = some .cancelled → p.workers ≤ p.stalls i
  started : ∀ i, p.state? i = some .running ∨ p.hasEnded i = true → p.stalls i < p.workers

theorem served_of_nil {p : Pool} (h : p.jobs = []) : p.Served 0 := by
  have hnone : ∀ i, p.state? i = none := by
    intro i
    rw [state?_eq_none_iff, h]
    exact Nat.zero_le _
  have hended : ∀ i, p.hasEnded i = false := by
    intro i
    unfold hasEnded
    rw [hnone]
    rfl
  exact ⟨by simp [hnone], fun i _ _ _ => hended i, by simp, by simp, by simp [hnone], by simp [hnone, hended]⟩

theorem served_submit {p q : Pool} {job : Job} (hp : p.Served 0) (h : p.submit job = .ok q) : q.Served 0 := by
  obtain ⟨-, -, hworkers, -⟩ := submit_eq_ok h
  have hold : ∀ {i s}, i ≠ p.jobs.length → q.state? i = some s → p.state? i = some s := by
    intro i s hi hs
    rwa [state?_submit h, if_neg hi] at hs
  refine ⟨?_, ?_, by simp, by simp, ?_, ?_⟩
  · intro i j s hij hi hj
    by_cases hlast : j = p.jobs.length
    · rw [state?_submit h, if_pos hlast] at hj
      exact (Option.some.inj hj).symm
    · have hlt := lt_length_of_state? (hold hlast hj)
      exact hp.inOrder i j s hij (hold (by omega) hi) (hold hlast hj)
  · intro i other hother hholds
    rw [hasEnded_submit h]
    by_cases hi : i < p.descriptors.length
    · rw [descriptors_submit h, List.getElem?_append_left hi] at hother
      exact hp.held i other hother hholds
    · rw [length_descriptors] at hi
      unfold hasEnded
      rw [(state?_eq_none_iff p i).2 (by omega)]
      rfl
  · intro i hi
    have hne : i ≠ p.jobs.length := by
      intro hc
      rw [state?_submit h, if_pos hc] at hi
      cases hi
    have hlt := lt_length_of_state? (hold hne hi)
    rw [hworkers, stalls_submit h (by omega)]
    exact hp.cancelled i (hold hne hi)
  · intro i hi
    rw [hasEnded_submit h] at hi
    have hstarted : p.state? i = some .running ∨ p.hasEnded i = true := by
      rcases hi with hi | hi
      · refine .inl (hold ?_ hi)
        intro hc
        rw [state?_submit h, if_pos hc] at hi
        cases hi
      · exact .inr hi
    have hlt : i < p.jobs.length := by
      rcases hstarted with hs | hs
      · exact lt_length_of_state? hs
      · obtain ⟨s, hs⟩ := exists_state?_of_hasEnded hs
        exact lt_length_of_state? hs
    rw [hworkers, stalls_submit h (by omega)]
    exact hp.started i hstarted

/-- a worker that is free takes the first job of the queue -/
def InTurn (p : Pool) (i : Nat) : Prop :=
  p.state? i = some .queued → p.busy < p.workers → ∀ j < i, p.state? j ≠ some .queued

instance (p : Pool) (i : Nat) : Decidable (p.InTurn i) :=
  inferInstanceAs (Decidable (p.state? i = some .queued → p.busy < p.workers → ∀ j < i, p.state? j ≠ some .queued))

/-- a job that gets a worker in its turn has fewer holding jobs than workers before it -/
theorem stalls_lt_of_inTurn {p : Pool} {k i : Nat} (hp : p.Served k) (hqueue : ∀ j < i, p.state? j ≠ some .queued)
    (hfree : p.busy < p.workers) : p.stalls i < p.workers := by
  by_contra hc
  have hmin : min p.workers (p.stalls i) ≤ (p.jobs.take i).countP isRunning := by
    apply min_stalls_le
    intro j hj job s hjob hholds
    have hstate : p.state? j = some s := by simp [state?, hjob]
    have hended := hp.held j job (getElem?_descriptors hjob) hholds
    rw [hasEnded_of_state? hstate] at hended
    cases s with
    | queued => exact absurd hstate (hqueue j hj)
    | running => exact .inl rfl
    | returned => cases hended
    | raised => cases hended
    | cancelled => exact .inr (hp.cancelled j hstate)
  have hbusy := countP_take_le_busy p i
  omega

/-- what is left to see when one job changes its state: it is not in the queue any more, those before it were not
either, and its new state is as it should be -/
theorem served_change {p q : Pool} {k i : Nat} (hp : p.Served k) (hdesc : q.descriptors = p.descriptors)
    (hworkers : q.workers = p.workers) (hother : ∀ j, j ≠ i → q.state? j = p.state? j)
    (hleft : q.state? i ≠ some .queued) (hahead : ∀ j < i, p.state? j ≠ some .queued)
    (hheld : ∀ job, p.descriptors[i]? = some job → job.holds = true → q.hasEnded i = false)
    (hpassed : i < k → q.state? i ≠ some .running)
    (hcancelled : q.state? i = some .cancelled → p.workers ≤ p.stalls i)
    (hstarted : q.state? i = some .running ∨ q.hasEnded i = true → p.stalls i < p.workers) : q.Served k := by
  have hended : ∀ j, j ≠ i → q.hasEnded j = p.hasEnded j := by
    intro j hj
    unfold hasEnded
    rw [hother j hj]
  refine ⟨?_, ?_, ?_, ?_, ?_, ?_⟩
  · intro a b s hab ha hb
    have hai : a ≠ i := fun hc => hleft (hc ▸ ha)
    rw [hother a hai] at ha
    by_cases hbi : b = i
    · exact absurd ha (hahead a (hbi ▸ hab))
    · rw [hother b hbi] at hb
      exact hp.inOrder a b s hab ha hb
  · intro a job hjob hholds
    rw [hdesc] at hjob
    by_cases hai : a = i
    · subst hai
      exact hheld job hjob hholds
    · rw [hended a hai]
      exact hp.held a job hjob hholds
  · intro a ha hc
    have hai : a ≠ i := fun heq => hleft (heq ▸ hc)
    rw [hother a hai] at hc
    exact hp.waited a ha hc
  · intro a ha hc
    have hai : a ≠ i := by
      rintro rfl
      exact hpassed ha hc
    rw [hother a hai] at hc
    rw [hdesc]
    exact hp.passed a ha hc
  · intro a hc
    rw [hworkers, stalls_congr hdesc]
    by_cases hai : a = i
    · subst hai
      exact hcancelled hc
    · rw [hother a hai] at hc
      exact hp.cancelled a hc
  · intro a ha
    rw [hworkers, stalls_congr hdesc]
    by_cases hai : a = i
    · subst hai
      exact hstarted ha
    · rw [hother a hai, hended a hai] at ha
      exact hp.started a ha

theorem served_start {p : Pool} {k i : Nat} (hp : p.Served k) (hturn : p.InTurn i) : (p.start i).Served k := by
  rcases start_cases p i with ⟨hsame, -⟩ | ⟨hqueued, hfree, -⟩
  · rw [hsame]
    exact hp
  have hahead := hturn hqueued hfree
  have hstate := state?_start_self hqueued hfree
  refine served_change hp (descriptors_start p i) (workers_start p i) ?_ ?_ hahead ?_ ?_ ?_ ?_
  · exact fun j hj => state?_start_of_ne p hj
  · simp [hstate]
  · intro job hjob hholds
    rw [hasEnded_start]
    exact hp.held i job hjob hholds
  · intro hik
    exact absurd hqueued (hp.waited i hik)
  · simp [hstate]
  · intro _
    exact stalls_lt_of_inTurn hp hahead hfree

theorem served_finish {p : Pool} {k i : Nat} (hp : p.Served k)
    (hends : ∀ job, p.descriptors[i]? = some job → job.holds = false) : (p.finish i).Served k := by
  by_cases hrunning : p.state? i = some .running
  swap
  · rw [finish_of_not_running hrunning]
    exact hp
  refine served_change hp (descriptors_finish p i) (workers_finish p i) (fun j hj => state?_finish_of_ne p hj)
    (state?_finish_ne hrunning rfl) ?_ ?_ ?_ ?_ ?_
  · intro j hj hqueued
    -- behind a queued job nothing runs
    cases hp.inOrder j i .running hj hqueued hrunning
  · intro job hjob hholds
    rw [hends job hjob] at hholds
    cases hholds
  · exact fun _ => state?_finish_ne hrunning rfl
  · exact fun hc => absurd hc (state?_finish_ne hrunning rfl)
  · exact fun _ => hp.started i (.inl hrunning)

theorem served_succ {p : Pool} {k : Nat} (hp : p.Served k) (hleft : p.state? k ≠ some .queued)
    (hslow : p.state? k = some .running → ∀ job, p.descriptors[k]? = some job → job.holds = true) :
    p.Served (k + 1) := by
  refine ⟨hp.inOrder, hp.held, ?_, ?_, hp.cancelled, hp.started⟩
  · intro i hi
    rcases Nat.lt_succ_iff_lt_or_eq.1 hi with hlt | rfl
    · exact hp.waited i hlt
    · exact hleft
  · intro i hi
    rcases Nat.lt_succ_iff_lt_or_eq.1 hi with hlt | rfl
    · exact hp.passed i hlt
    · exact hslow

theorem served_answered {p : Pool} {k : Nat} (hp : p.Served k) (hended : p.hasEnded k = true) : p.Served (k + 1) :=
  served_succ hp (state?_ne_of_hasEnded hended rfl) fun hc => absurd hc (state?_ne_of_hasEnded hended rfl)

/-- what is assumed when the wait for a job expires: it runs only if it holds its worker, and no worker is free while a
job is in the queue -/
structure Exhausted (p : Pool) (k : Nat) : Prop where
  slow : p.state? k = some .running → ∀ job, p.descriptors[k]? = some job → job.holds = true
  busy : (∃ j, p.state? j = some .queued) → p.workers ≤ p.busy

theorem exhausted_iff (p : Pool) (k : Nat) : p.Exhausted k ↔
    (p.state? k = some .running → ∀ job ∈ p.descriptors[k]?, job.holds = true) ∧
      ((∃ j < p.jobs.length, p.state? j = some .queued) → p.workers ≤ p.busy) := by
  constructor
  · intro h
    refine ⟨h.slow, ?_⟩
    rintro ⟨j, -, hj⟩
    exact h.busy ⟨j, hj⟩
  · rintro ⟨hslow, hbusy⟩
    refine ⟨hslow, ?_⟩
    rintro ⟨j, hj⟩
    exact hbusy ⟨j, lt_length_of_state? hj, hj⟩

instance (p : Pool) (k : Nat) : Decidable (p.Exhausted k) := decidable_of_iff' _ (exhausted_iff p k)

theorem stalls_ge_of_queued {p : Pool} {k : Nat} (hp : p.Served k) (hexp : p.Exhausted k)
    (hqueued : p.state? k = some .queued) : p.workers ≤ p.stalls k := by
  refine Nat.le_trans (hexp.busy ⟨k, hqueued⟩) (busy_le_stalls ?_)
  intro i job hjob
  have hrunning : p.state? i = some .running := by simp [state?, hjob]
  rcases Nat.lt_trichotomy i k with hlt | rfl | hgt
  · exact ⟨hlt, hp.passed i hlt hrunning job (getElem?_descriptors hjob)⟩
  · rw [hqueued] at hrunning
    cases hrunning
  · cases hp.inOrder k i .running hgt hqueued hrunning

theorem served_expired {p : Pool} {k : Nat} (hp : p.Served k) (hexp : p.Exhausted k) :
    (p.cancel k).Served (k + 1) := by
  rcases cancel_cases p k with ⟨hsame, hleft⟩ | ⟨hqueued, -⟩
  · rw [hsame]
    exact served_succ hp hleft hexp.slow
  have hstate : (p.cancel k).state? k = some .cancelled := by simp [state?_cancel, hqueued]
  have hserved : (p.cancel k).Served k := by
    refine served_change hp (descriptors_cancel p k) (workers_cancel p k) ?_ ?_ hp.waited ?_ ?_ ?_ ?_
    · intro j hj
      rw [state?_cancel, if_neg fun h => hj h.1]
    · simp [hstate]
    · intro job hjob hholds
      rw [hasEnded_cancel]
      exact hp.held k job hjob hholds
    · simp
    · exact fun _ => stalls_ge_of_queued hp hexp hqueued
    · simp [hstate, hasEnded_of_state? hqueued, JobState.isEnded]
  exact served_succ hserved (by simp [hstate]) (by simp [hstate])

/-- a job whose wait ends with its answer is not a holding one and has few before it -/
theorem served_of_hasEnded {p : Pool} {k : Nat} (hp : p.Served k) (hended : p.hasEnded k = true) {job : Job}
    (hjob : p.descriptors[k]? = some job) : job.holds = false ∧ p.stalls k < p.workers := by
  refine ⟨?_, hp.started k (.inr hended)⟩
  rw [← Bool.not_eq_true]
  intro hholds
  rw [hp.held k job hjob hholds] at hended
  cases hended

/-- a job whose wait expires is a holding one or has many before it -/
theorem stalled_of_expired {p : Pool} {k : Nat} (hp : p.Served k) (hexp : p.Exhausted k)
    (hnot : p.hasEnded k = false) {job : Job} (hjob : p.descriptors[k]? = some job) :
    ¬ (job.holds = false ∧ p.stalls k < p.workers) := by
  rintro ⟨hends, hfew⟩
  obtain ⟨s, hs⟩ := exists_state?_of_lt (lt_length_of_descriptor hjob)
  rw [hasEnded_of_state? hs] at hnot
  cases s with
  | queued =>
    have hmany := stalls_ge_of_queued hp hexp hs
    omega
  | running =>
    rw [hexp.slow hs job hjob] at hends
    cases hends
  | returned => cases hnot
  | raised => cases hnot
  | cancelled =>
    have hmany := hp.cancelled k hs
    omega

/-! ## Settling -/

theorem busy_congr {p q : Pool} (h : p.jobs.map isRunning = q.jobs.map isRunning) : p.busy = q.busy := by
  have hcount : ∀ r : Pool, r.busy = (r.jobs.map isRunning).countP id := by
    intro r
    rw [List.countP_map]
    rfl
  rw [hcount, hcount, h]

@[simp] theorem busy_cancel (p : Pool) (i : Nat) : (p.cancel i).busy = p.busy := by
  rcases cancel_cases p i with ⟨hsame, -⟩ | ⟨hqueued, hjobs⟩
  · rw [hsame]
  obtain ⟨job, hjob⟩ := exists_of_state? hqueued
  apply busy_congr
  rw [hjobs, setState]
  apply List.ext_getElem?
  intro j
  rw [List.getElem?_map, List.getElem?_map, List.getElem?_modify]
  by_cases hj : i = j
  · subst hj
    rw [hjob]
    simp [isRunning]
  · simp [hj]

/-- a pool at rest stays so when a job is cancelled -/
theorem exhausted_cancel {p : Pool} (h : ∀ k, p.Exhausted k) (i k : Nat) : (p.cancel i).Exhausted k := by
  constructor
  · intro hrunning
    rw [state?_cancel] at hrunning
    split_ifs at hrunning with hi
    · cases hrunning
    · rw [descriptors_cancel]
      exact (h k).slow hrunning
  · rintro ⟨j, hj⟩
    rw [state?_cancel] at hj
    split_ifs at hj with hi
    · cases hj
    · rw [workers_cancel, busy_cancel]
      exact (h k).busy ⟨j, hj⟩

/-- the jobs before the given one have been looked at: what runs holds its worker, and what is left in the queue found
no worker free -/
structure Swept (p : Pool) (i : Nat) : Prop where
  later : ∀ j s, i ≤ j → p.state? j = some s → s = .queued
  kept : ∀ j, p.state? j ≠ some .cancelled
  slow : ∀ j, p.state? j = some .running → ∀ job, p.descriptors[j]? = some job → job.holds = true
  busy : (∃ j < i, p.state? j = some .queued) → p.workers ≤ p.busy

theorem swept_of_queued {p : Pool} (h : ∀ j s, p.state? j = some s → s = .queued) : p.Swept 0 where
  later j s _ := h j s
  kept j hj := by cases h j _ hj
  slow j hj := by cases h j _ hj
  busy := by simp

theorem Swept.inTurn {p : Pool} {i : Nat} (h : p.Swept i) : p.InTurn i := by
  intro _ hfree j hj hqueued
  have hbusy := h.busy ⟨j, hj, hqueued⟩
  omega

theorem Swept.not_running {p : Pool} {i : Nat} (h : p.Swept i) : p.state? i ≠ some .running := by
  intro hc
  cases h.later i _ (Nat.le_refl i) hc

/-- no worker is free for the next job -/
theorem Swept.of_full {p : Pool} {i : Nat} (h : p.Swept i) (hfull : p.workers ≤ p.busy) : p.Swept (i + 1) where
  later j s hj := h.later j s (by omega)
  kept := h.kept
  slow := h.slow
  busy _ := hfull

/-- a worker is free for the next job, so nothing is left in the queue before it -/
theorem Swept.of_free {p q : Pool} {i : Nat} (h : p.Swept i) (hfree : p.busy < p.workers)
    (hdesc : q.descriptors = p.descriptors) (hother : ∀ j, j ≠ i → q.state? j = p.state? j)
    (hleft : q.state? i ≠ some .queued) (hkept : q.state? i ≠ some .cancelled)
    (hslow : q.state? i = some .running → ∀ job, p.descriptors[i]? = some job → job.holds = true) :
    q.Swept (i + 1) where
  later j s hj hs := by
    rw [hother j (by omega)] at hs
    exact h.later j s (by omega) hs
  kept j hj := by
    by_cases hji : j = i
    · subst hji
      exact hkept hj
    · rw [hother j hji] at hj
      exact h.kept j hj
  slow j hj := by
    rw [hdesc]
    by_cases hji : j = i
    · subst hji
      exact hslow hj
    · rw [hother j hji] at hj
      exact h.slow j hj
  busy := by
    rintro ⟨j, hj, hqueued⟩
    have hji : j ≠ i := fun hc => hleft (hc ▸ hqueued)
    rw [hother j hji] at hqueued
    have hfull := h.busy ⟨j, by omega, hqueued⟩
    omega

section

variable {p : Pool} {i : Nat} {job : Job}

theorem Swept.queued (h : p.Swept i) (hjob : p.descriptors[i]? = some job) : p.state? i = some .queued := by
  obtain ⟨s, hs⟩ := exists_state?_of_lt (lt_length_of_descriptor hjob)
  rw [hs, h.later i s (Nat.le_refl i) hs]

theorem Swept.start_holding (h : p.Swept i) (hjob : p.descriptors[i]? = some job) (hholds : job.holds = true) :
    (p.start i).Swept (i + 1) := by
  by_cases hfree : p.busy < p.workers
  · have hrunning := state?_start_self (h.queued hjob) hfree
    refine h.of_free hfree (descriptors_start p i) (fun j hj => state?_start_of_ne p hj) (by simp [hrunning])
      (by simp [hrunning]) ?_
    intro _ other hother
    rw [hjob] at hother
    cases hother
    exact hholds
  · rw [start_of_full (by omega)]
    exact h.of_full (by omega)

theorem Swept.start_finish (h : p.Swept i) (hjob : p.descriptors[i]? = some job) :
    ((p.start i).finish i).Swept (i + 1) := by
  by_cases hfree : p.busy < p.workers
  · have hrunning := state?_start_self (h.queued hjob) hfree
    refine h.of_free hfree (by simp) ?_ (state?_finish_ne hrunning rfl) (state?_finish_ne hrunning rfl) ?_
    · intro j hj
      rw [state?_finish_of_ne _ hj, state?_start_of_ne _ hj]
    · exact fun hc => absurd hc (state?_finish_ne hrunning rfl)
  · rw [start_of_full (by omega), finish_of_not_running h.not_running]
    exact h.of_full (by omega)

end

/-- if no job holds its worker, all have ended once they have been looked at -/
theorem Swept.hasEnded {p : Pool} {n : Nat} (h : p.Swept n) (hn : p.jobs.length ≤ n) (hworkers : 0 < p.workers)
    (hends : ∀ job ∈ p.descriptors, job.holds = false) {k : Nat} (hk : k < p.jobs.length) : p.hasEnded k = true := by
  have hidle : ∀ j, p.state? j ≠ some .running := by
    intro j hj
    obtain ⟨job, hjob⟩ := exists_of_state? hj
    have hholds := h.slow j hj job (getElem?_descriptors hjob)
    rw [hends job (List.mem_of_getElem? (getElem?_descriptors hjob))] at hholds
    cases hholds
  have hbusy : p.busy = 0 := by
    rw [Pool.busy, List.countP_eq_zero]
    rintro ⟨job, s⟩ hmem hrunning
    obtain ⟨j, hj⟩ := List.mem_iff_getElem?.1 hmem
    obtain rfl : s = .running := by simpa [isRunning] using hrunning
    exact hidle j (by simp [state?, hj])
  obtain ⟨s, hs⟩ := exists_state?_of_lt hk
  rw [hasEnded_of_state? hs]
  cases s with
  | queued =>
    have hfull := h.busy ⟨k, by omega, hs⟩
    omega
  | running => exact absurd hs (hidle k)
  | returned => rfl
  | raised => rfl
  | cancelled => exact absurd hs (h.kept k)

/-- a pool whose jobs have all been looked at is at rest -/
theorem Swept.exhausted {p : Pool} {n : Nat} (h : p.Swept n) (hn : p.jobs.length ≤ n) (k : Nat) : p.Exhausted k where
  slow := h.slow k
  busy := by
    rintro ⟨j, hj⟩
    exact h.busy ⟨j, Nat.lt_of_lt_of_le (lt_length_of_state? hj) hn, hj⟩

end Pool

end ClassNaming
