/-
Where the jobs of a pool are after each of its steps.

A step changes the state of one job at most and leaves the jobs themselves, their number and the workers as they are;
only handing a job over adds one.

- `state?_start`, `state?_finish`, `state?_cancel`, `state?_submit`: the states after a step.
- `descriptors_start` and the like: the jobs after a step.
-/
import Mathlib.Data.List.Basic
import ClassNaming.Tasks.Pool

namespace ClassNaming

/-- the state in which a job ends -/
def Job.ending (job : Job) : JobState :=
  if job.returns then .returned else .raised

/-- the job has come to its end -/
def JobState.isEnded : JobState → Bool
  | .returned => true
  | .raised => true
  | _ => false

theorem Job.ending_isEnded (job : Job) : job.ending.isEnded = true := by
  unfold ending
  split_ifs <;> rfl

namespace Pool

variable (p : Pool) (i j : Nat)

/-- the jobs without their states -/
def descriptors : List Job := p.jobs.map (·.1)

theorem length_descriptors : p.descriptors.length = p.jobs.length := List.length_map _

theorem exists_of_state? {p : Pool} {i : Nat} {s : JobState} (h : p.state? i = some s) :
    ∃ job, p.jobs[i]? = some (job, s) := by
  obtain ⟨⟨job, t⟩, hjob, rfl⟩ := Option.map_eq_some_iff.1 h
  exact ⟨job, hjob⟩

theorem getElem?_descriptors {p : Pool} {i : Nat} {job : Job} {s : JobState} (h : p.jobs[i]? = some (job, s)) :
    p.descriptors[i]? = some job := by
  simp [descriptors, h]

theorem state?_eq_none_iff : p.state? i = none ↔ p.jobs.length ≤ i := by
  simp [state?]

theorem lt_length_of_state? {p : Pool} {i : Nat} {s : JobState} (h : p.state? i = some s) : i < p.jobs.length := by
  by_contra hc
  rw [(state?_eq_none_iff p i).2 (by omega)] at h
  cases h

/-- every job of the pool is in some state -/
theorem exists_state?_of_lt {p : Pool} {i : Nat} (h : i < p.jobs.length) : ∃ s, p.state? i = some s := by
  cases hs : p.state? i with
  | none =>
    rw [state?_eq_none_iff] at hs
    omega
  | some s => exact ⟨s, rfl⟩

theorem lt_length_of_descriptor {p : Pool} {i : Nat} {job : Job} (h : p.descriptors[i]? = some job) :
    i < p.jobs.length := by
  rw [← length_descriptors]
  exact (List.getElem?_eq_some_iff.1 h).1

/-! ## One job in another state -/

theorem state?_setState (s : JobState) :
    (p.setState i s).state? j = if j = i then (p.state? j).map fun _ => s else p.state? j := by
  unfold state? setState
  rw [List.getElem?_modify]
  by_cases h : i = j
  · subst h
    cases p.jobs[i]? <;> simp
  · simp [h, Ne.symm h]

theorem descriptors_setState (s : JobState) : (p.setState i s).descriptors = p.descriptors := by
  unfold descriptors setState
  apply List.ext_getElem?
  intro k
  rw [List.getElem?_map, List.getElem?_map, List.getElem?_modify]
  cases p.jobs[k]? with
  | none => rfl
  | some job => by_cases h : i = k <;> simp [h]

/-! ## Starting -/

theorem start_cases : (p.start i = p ∧ ¬ (p.state? i = some .queued ∧ p.busy < p.workers)) ∨
    (p.state? i = some .queued ∧ p.busy < p.workers ∧ p.start i = p.setState i .running) := by
  unfold start
  split_ifs with h
  · obtain ⟨hqueued, hfree⟩ : p.state? i = some .queued ∧ p.busy < p.workers := by simpa using h
    exact .inr ⟨hqueued, hfree, rfl⟩
  · exact .inl ⟨rfl, by simpa using h⟩

theorem state?_start : (p.start i).state? j =
    if j = i ∧ p.state? i = some .queued ∧ p.busy < p.workers then some .running else p.state? j := by
  rcases start_cases p i with ⟨hsame, hno⟩ | ⟨hqueued, hfree, hstart⟩
  · rw [hsame, if_neg fun h => hno h.2]
  · rw [hstart, state?_setState]
    by_cases h : j = i
    · simp [h, hqueued, hfree]
    · simp [h]

theorem state?_start_self {p : Pool} {i : Nat} (hqueued : p.state? i = some .queued) (hfree : p.busy < p.workers) :
    (p.start i).state? i = some .running := by
  rw [state?_start, if_pos ⟨rfl, hqueued, hfree⟩]

theorem state?_start_of_ne (p : Pool) {i j : Nat} (h : j ≠ i) : (p.start i).state? j = p.state? j := by
  rw [state?_start, if_neg fun hc => h hc.1]

theorem start_of_full {p : Pool} {i : Nat} (h : p.workers ≤ p.busy) : p.start i = p := by
  rcases start_cases p i with ⟨hsame, -⟩ | ⟨-, hfree, -⟩
  · exact hsame
  · omega

@[simp] theorem descriptors_start : (p.start i).descriptors = p.descriptors := by
  rcases start_cases p i with ⟨hsame, -⟩ | ⟨-, -, hstart⟩
  · rw [hsame]
  · rw [hstart, descriptors_setState]

@[simp] theorem workers_start : (p.start i).workers = p.workers := by
  rcases start_cases p i with ⟨hsame, -⟩ | ⟨-, -, hstart⟩
  · rw [hsame]
  · rw [hstart]
    rfl

@[simp] theorem closed_start : (p.start i).closed = p.closed := by
  rcases start_cases p i with ⟨hsame, -⟩ | ⟨-, -, hstart⟩
  · rw [hsame]
  · rw [hstart]
    rfl

/-! ## Finishing -/

theorem finish_cases : (p.finish i = p ∧ p.state? i ≠ some .running) ∨
    ∃ job, p.jobs[i]? = some (job, .running) ∧ (p.finish i).jobs = (p.setState i job.ending).jobs ∧
      (p.finish i).workers = p.workers ∧ (p.finish i).closed = p.closed := by
  unfold finish
  split
  · rename_i job hjob
    refine .inr ⟨job, hjob, ?_⟩
    dsimp only
    unfold Job.ending
    split_ifs <;> exact ⟨rfl, rfl, rfl⟩
  · rename_i hno
    refine .inl ⟨rfl, ?_⟩
    intro h
    obtain ⟨job, hjob⟩ := exists_of_state? h
    exact hno job hjob

theorem state?_congr {p q : Pool} (h : p.jobs = q.jobs) (j : Nat) : p.state? j = q.state? j := by
  unfold state?
  rw [h]

theorem state?_finish : (p.finish i).state? j =
    if j = i ∧ p.state? i = some .running then (p.descriptors[i]?).map Job.ending else p.state? j := by
  rcases finish_cases p i with ⟨hsame, hno⟩ | ⟨job, hjob, hjobs, -⟩
  · rw [hsame, if_neg fun h => hno h.2]
  · rw [state?_congr hjobs, state?_setState, getElem?_descriptors hjob]
    have hrunning : p.state? i = some .running := by simp [state?, hjob]
    by_cases h : j = i
    · simp [h, hrunning]
    · simp [h]

theorem state?_finish_of_ne (p : Pool) {i j : Nat} (h : j ≠ i) : (p.finish i).state? j = p.state? j := by
  rw [state?_finish, if_neg fun hc => h hc.1]

theorem finish_of_not_running {p : Pool} {i : Nat} (h : p.state? i ≠ some .running) : p.finish i = p := by
  rcases finish_cases p i with ⟨hsame, -⟩ | ⟨job, hjob, -⟩
  · exact hsame
  · exact absurd (by simp [state?, hjob]) h

@[simp] theorem descriptors_finish : (p.finish i).descriptors = p.descriptors := by
  rcases finish_cases p i with ⟨hsame, -⟩ | ⟨job, -, hjobs, -⟩
  · rw [hsame]
  · rw [← descriptors_setState p i job.ending]
    unfold descriptors
    rw [hjobs]

@[simp] theorem workers_finish : (p.finish i).workers = p.workers := by
  rcases finish_cases p i with ⟨hsame, -⟩ | ⟨job, -, -, hworkers, -⟩
  · rw [hsame]
  · exact hworkers

@[simp] theorem closed_finish : (p.finish i).closed = p.closed := by
  rcases finish_cases p i with ⟨hsame, -⟩ | ⟨job, -, -, -, hclosed⟩
  · rw [hsame]
  · exact hclosed

/-! ## Cancelling and handing over -/

theorem cancel_cases : (p.cancel i = p ∧ p.state? i ≠ some .queued) ∨
    (p.state? i = some .queued ∧ (p.cancel i).jobs = (p.setState i .cancelled).jobs) := by
  unfold cancel
  split_ifs with h
  · exact .inr ⟨by simpa using h, rfl⟩
  · exact .inl ⟨rfl, by simpa using h⟩

theorem state?_cancel : (p.cancel i).state? j =
    if j = i ∧ p.state? i = some .queued then some .cancelled else p.state? j := by
  rcases cancel_cases p i with ⟨hsame, hno⟩ | ⟨hqueued, hjobs⟩
  · rw [hsame, if_neg fun h => hno h.2]
  · rw [state?_congr hjobs, state?_setState]
    by_cases h : j = i
    · simp [h, hqueued]
    · simp [h]

@[simp] theorem descriptors_cancel : (p.cancel i).descriptors = p.descriptors := by
  rcases cancel_cases p i with ⟨hsame, -⟩ | ⟨-, hjobs⟩
  · rw [hsame]
  · rw [← descriptors_setState p i .cancelled]
    unfold descriptors
    rw [hjobs]

@[simp] theorem workers_cancel : (p.cancel i).workers = p.workers := by
  unfold cancel
  split_ifs <;> rfl

@[simp] theorem closed_cancel : (p.cancel i).closed = p.closed := by
  unfold cancel
  split_ifs <;> rfl

theorem submit_eq_ok {p q : Pool} {job : Job} (h : p.submit job = .ok q) :
    p.closed = false ∧ q.jobs = p.jobs ++ [(job, .queued)] ∧ q.workers = p.workers ∧ q.closed = p.closed := by
  unfold submit at h
  split_ifs at h with hclosed
  cases h
  exact ⟨by simpa using hclosed, rfl, rfl, rfl⟩

theorem submit_of_open {p : Pool} (h : p.closed = false) (job : Job) : ∃ q, p.submit job = .ok q := by
  simp [submit, h]

theorem state?_submit {p q : Pool} {job : Job} (h : p.submit job = .ok q) (j : Nat) :
    q.state? j = if j = p.jobs.length then some .queued else p.state? j := by
  obtain ⟨-, hjobs, -, -⟩ := submit_eq_ok h
  unfold state?
  rw [hjobs, List.getElem?_append]
  by_cases hj : j < p.jobs.length
  · simp [hj, Nat.ne_of_lt hj]
  · by_cases heq : j = p.jobs.length
    · simp [heq]
    · have hlater : p.jobs.length < j := by omega
      simp [heq, hj, Nat.sub_ne_zero_of_lt hlater]

theorem descriptors_submit {p q : Pool} {job : Job} (h : p.submit job = .ok q) :
    q.descriptors = p.descriptors ++ [job] := by
  obtain ⟨-, hjobs, -, -⟩ := submit_eq_ok h
  simp [descriptors, hjobs]

/-! ## Jobs that have ended -/

/-- the job has come to its end -/
def hasEnded : Bool := (p.state? i).any JobState.isEnded

theorem hasEnded_of_state? {p : Pool} {i : Nat} {s : JobState} (h : p.state? i = some s) :
    p.hasEnded i = s.isEnded := by
  unfold hasEnded
  rw [h]
  rfl

theorem exists_state?_of_hasEnded {p : Pool} {i : Nat} (h : p.hasEnded i = true) : ∃ s, p.state? i = some s := by
  unfold hasEnded at h
  cases hs : p.state? i with
  | none => simp [hs] at h
  | some s => exact ⟨s, rfl⟩

/-- a job that has ended is in none of the other states -/
theorem state?_ne_of_hasEnded {p : Pool} {i : Nat} (h : p.hasEnded i = true) {s : JobState} (hs : s.isEnded = false) :
    p.state? i ≠ some s := by
  intro hc
  rw [hasEnded_of_state? hc, hs] at h
  cases h

@[simp] theorem hasEnded_start : (p.start i).hasEnded j = p.hasEnded j := by
  unfold hasEnded
  rw [state?_start]
  split_ifs with h
  · rw [h.1, h.2.1]
    rfl
  · rfl

@[simp] theorem hasEnded_cancel : (p.cancel i).hasEnded j = p.hasEnded j := by
  unfold hasEnded
  rw [state?_cancel]
  split_ifs with h
  · rw [h.1, h.2]
    rfl
  · rfl

theorem hasEnded_submit {p q : Pool} {job : Job} (h : p.submit job = .ok q) (j : Nat) :
    q.hasEnded j = p.hasEnded j := by
  unfold hasEnded
  rw [state?_submit h]
  split_ifs with hj
  · rw [hj, (state?_eq_none_iff p _).2 (Nat.le_refl _)]
    rfl
  · rfl

theorem hasEnded_finish {p : Pool} {i : Nat} (h : p.state? i = some .running) (j : Nat) :
    (p.finish i).hasEnded j = if j = i then true else p.hasEnded j := by
  unfold hasEnded
  rw [state?_finish]
  by_cases hj : j = i
  · obtain ⟨job, hjob⟩ := exists_of_state? h
    simp [hj, h, getElem?_descriptors hjob, Job.ending_isEnded]
  · simp [hj]

theorem state?_finish_ne {p : Pool} {i : Nat} (hrunning : p.state? i = some .running) {s : JobState}
    (hs : s.isEnded = false) : (p.finish i).state? i ≠ some s := by
  have hended := hasEnded_finish hrunning i
  rw [if_pos rfl] at hended
  exact state?_ne_of_hasEnded hended hs

end Pool

end ClassNaming
