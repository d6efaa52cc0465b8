/-
What is suggested for a token with underscores.

A run of underscores is maximal if no underscore stands before it or after it. Two suggestions go by the lengths of these
runs, and one of them quotes a repair.

- `mem_diagnose_named`: each suggestion comes from the check whose name it bears.
- `hasLoneRun_iff`, `hasTriple_iff`: the searches for underscores find the maximal runs, wherever they stand.
- `shortenPair_eq`: what is shortened is the first run of two.
- `RunAt.cut`, `hasRun_cut`: the runs of a text are its first one and those after it.
- `suggestions_follow_runs`: which of the two suggestions are made, and that the repair works.
-/
import ClassNaming.Proofs.Naming.MoreUtilities
import ClassNaming.Proofs.Naming.Underscores

namespace ClassNaming

open Diagnosis

/-! ## One check, one suggestion -/

/-- the checks with the names that their suggestions bear -/
def namedChecks : List (String × (List Char → Option Suggestion)) :=
  [("double-underscore", doubleUnderscore), ("is" ++ "-prefix", camelState "is"), ("has" ++ "-prefix", camelState "has"),
    ("uppercase", uppercase), ("nesting-depth", nestingDepth)]

theorem nodup_names : (namedChecks.map (·.1)).Nodup := by decide

theorem check_eq_name {name : String} {check : List Char → Option Suggestion} (h : (name, check) ∈ namedChecks)
    {w : List Char} {s : Suggestion} (hs : check w = some s) : s.check = name := by
  have hcamel : ∀ lead, camelState lead w = some s → s.check = lead ++ "-prefix" := by
    intro lead hlead
    obtain ⟨form, -, rfl⟩ := Option.map_eq_some_iff.1 hlead
    rfl
  simp only [namedChecks, List.mem_cons, Prod.mk.injEq, List.not_mem_nil, or_false] at h
  rcases h with ⟨rfl, rfl⟩ | ⟨rfl, rfl⟩ | ⟨rfl, rfl⟩ | ⟨rfl, rfl⟩ | ⟨rfl, rfl⟩
  · unfold doubleUnderscore at hs
    split_ifs at hs
    cases hs
    rfl
  · exact hcamel "is" hs
  · exact hcamel "has" hs
  · unfold uppercase at hs
    split_ifs at hs
    cases hs
    rfl
  · unfold nestingDepth at hs
    split_ifs at hs
    cases hs
    rfl

/-- **A suggestion comes from the one check whose name it bears.** -/
theorem mem_diagnose_named {name : String} {check : List Char → Option Suggestion} (h : (name, check) ∈ namedChecks)
    (t : String) (s : Suggestion) : s ∈ diagnose t ∧ s.check = name ↔ check t.toList = some s := by
  constructor
  · rintro ⟨hs, hname⟩
    obtain ⟨other, hother, hsome⟩ := List.mem_filterMap.1 hs
    obtain ⟨⟨word, other⟩, hentry, rfl⟩ := List.mem_map.1 (show other ∈ namedChecks.map (·.2) from hother)
    have hword : word = name := (check_eq_name hentry hsome).symm.trans hname
    obtain ⟨-, rfl⟩ := Prod.mk.inj (List.inj_on_of_nodup_map nodup_names hentry h hword)
    exact hsome
  · intro hs
    refine ⟨List.mem_filterMap.2 ⟨check, ?_, hs⟩, check_eq_name h hs⟩
    exact List.mem_map_of_mem (f := (·.2)) h

theorem mem_diagnose_double (t : String) (s : Suggestion) :
    s ∈ diagnose t ∧ s.check = "double-underscore" ↔ doubleUnderscore t.toList = some s :=
  mem_diagnose_named (by simp [namedChecks]) t s

theorem mem_diagnose_depth (t : String) (s : Suggestion) :
    s ∈ diagnose t ∧ s.check = "nesting-depth" ↔ nestingDepth t.toList = some s :=
  mem_diagnose_named (by simp [namedChecks]) t s

/-! ## Runs of underscores -/

/-- a maximal run of `n` underscores between two parts of a text -/
structure RunAt (w before : List Char) (n : Nat) (after : List Char) : Prop where
  text : w = before ++ List.replicate n '_' ++ after
  pos : 0 < n
  opens : before.getLast? ≠ some '_'
  closes : after.head? ≠ some '_'

/-- some maximal run has `n` underscores -/
def HasRun (w : List Char) (n : Nat) : Prop := ∃ before after, RunAt w before n after

/-- the first of the maximal runs of `n` underscores -/
structure FirstRunAt (w before : List Char) (n : Nat) (after : List Char) : Prop extends RunAt w before n after where
  first : ∀ b a, RunAt w b n a → before.length ≤ b.length

theorem exists_firstRun {w : List Char} {n : Nat} (h : HasRun w n) : ∃ before after, FirstRunAt w before n after := by
  classical
  have hplace : ∃ k before after, before.length = k ∧ RunAt w before n after := by
    obtain ⟨before, after, hrun⟩ := h
    exact ⟨before.length, before, after, rfl, hrun⟩
  obtain ⟨before, after, hlength, hrun⟩ := Nat.find_spec hplace
  refine ⟨before, after, hrun, ?_⟩
  intro b a hb
  rw [hlength]
  exact Nat.find_min' hplace ⟨b, a, rfl, hb⟩

/-- no run is read off a text without underscores -/
theorem not_hasRun {u : List Char} (hu : '_' ∉ u) (n : Nat) : ¬ HasRun u n := by
  rintro ⟨before, after, hrun⟩
  apply hu
  rw [hrun.text]
  simp [hrun.pos.ne']

theorem replicate_append_inj {n k : Nat} {a w : List Char} (ha : a.head? ≠ some '_') (hw : w.head? ≠ some '_')
    (h : List.replicate n '_' ++ a = List.replicate k '_' ++ w) : n = k ∧ a = w := by
  induction n generalizing k with
  | zero =>
    cases k with
    | zero => exact ⟨rfl, h⟩
    | succ k =>
      rw [List.replicate_zero, List.nil_append] at h
      rw [h] at ha
      exact absurd rfl ha
  | succ n ih =>
    cases k with
    | zero =>
      rw [List.replicate_zero, List.nil_append] at h
      rw [← h] at hw
      exact absurd rfl hw
    | succ k =>
      rw [List.replicate_succ, List.replicate_succ, List.cons_append, List.cons_append] at h
      obtain ⟨hnk, haw⟩ := ih (List.cons.inj h).2
      exact ⟨congrArg (· + 1) hnk, haw⟩

/-- a run of a text is its first run, or it lies behind that one -/
theorem RunAt.cut {u w before after : List Char} {k n : Nat} (hu : '_' ∉ u) (hw : w.head? ≠ some '_')
    (h : RunAt (u ++ List.replicate k '_' ++ w) before n after) :
    before = u ∧ n = k ∧ after = w ∨
      ∃ between, before = u ++ List.replicate k '_' ++ between ∧ RunAt w between n after := by
  have htext := h.text
  rw [List.append_assoc, List.append_assoc] at htext
  have hstart : ∃ x, before = u ++ x ∧ List.replicate k '_' ++ w = x ++ (List.replicate n '_' ++ after) := by
    rcases List.append_eq_append_iff.1 htext with hlater | ⟨x, hx, heq⟩
    · exact hlater
    · -- a run that began inside of `u` would bring an underscore into it
      cases x with
      | nil =>
        rw [List.append_nil] at hx
        exact ⟨[], by rw [hx, List.append_nil], heq.symm⟩
      | cons c x =>
        obtain ⟨m, rfl⟩ := Nat.exists_eq_succ_of_ne_zero h.pos.ne'
        rw [List.replicate_succ, List.cons_append, List.cons_append] at heq
        obtain rfl := (List.cons.inj heq).1
        rw [hx] at hu
        exact absurd (List.mem_append_right _ List.mem_cons_self) hu
  obtain ⟨x, rfl, hx⟩ := hstart
  rcases List.append_eq_append_iff.1 hx with ⟨between, rfl, hbetween⟩ | ⟨y, hy, heq⟩
  · refine Or.inr ⟨between, (List.append_assoc _ _ _).symm, ?_, h.pos, ?_, h.closes⟩
    · rw [hbetween, List.append_assoc]
    · intro hlast
      apply h.opens
      rw [List.getLast?_append, List.getLast?_append, hlast]
      rfl
  · refine Or.inl ?_
    have hnil : x = [] := by
      by_contra hne
      -- otherwise an underscore of the first run stands before the run
      have hmem : x.getLast hne ∈ List.replicate k '_' := by
        rw [hy]
        exact List.mem_append_left _ (List.getLast_mem hne)
      apply h.opens
      rw [List.getLast?_append, List.getLast?_eq_some_getLast hne, List.eq_of_mem_replicate hmem]
      rfl
    rw [hnil, List.nil_append] at hy
    rw [← hy] at heq
    obtain ⟨hnk, hafter⟩ := replicate_append_inj h.closes hw heq
    exact ⟨by rw [hnil, List.append_nil], hnk, hafter⟩

theorem runAt_cut {u w : List Char} {k : Nat} (hu : '_' ∉ u) (hw : w.head? ≠ some '_') (hk : 0 < k) :
    RunAt (u ++ List.replicate k '_' ++ w) u k w :=
  ⟨rfl, hk, fun h => hu (List.mem_of_getLast? h), hw⟩

/-- the runs of a text are its first one and those of what follows -/
theorem hasRun_cut {u w : List Char} {k n : Nat} (hu : '_' ∉ u) (hw : w.head? ≠ some '_') (hk : 0 < k) :
    HasRun (u ++ List.replicate k '_' ++ w) n ↔ n = k ∨ HasRun w n := by
  constructor
  · rintro ⟨before, after, h⟩
    rcases h.cut hu hw with ⟨-, hn, -⟩ | ⟨between, -, hrun⟩
    · exact Or.inl hn
    · exact Or.inr ⟨between, after, hrun⟩
  · rintro (rfl | ⟨before, after, h⟩)
    · exact ⟨u, w, runAt_cut hu hw hk⟩
    · refine ⟨u ++ List.replicate k '_' ++ before, after, ?_, h.pos, ?_, h.closes⟩
      · rw [h.text]
        simp only [List.append_assoc]
      · -- what follows does not begin with an underscore, so its run has something before it
        cases before with
        | nil =>
          obtain ⟨m, rfl⟩ := Nat.exists_eq_succ_of_ne_zero h.pos.ne'
          rw [h.text] at hw
          exact absurd rfl hw
        | cons c before =>
          have hopens := h.opens
          rw [List.getLast?_append_of_ne_nil _ (List.cons_ne_nil c before)]
          exact hopens

theorem firstRun_cut {u w : List Char} {k : Nat} (hu : '_' ∉ u) (hw : w.head? ≠ some '_') (hk : 0 < k) :
    FirstRunAt (u ++ List.replicate k '_' ++ w) u k w := by
  refine ⟨runAt_cut hu hw hk, ?_⟩
  intro b a h
  rcases h.cut hu hw with ⟨rfl, -, -⟩ | ⟨between, rfl, -⟩
  · exact le_rfl
  · rw [List.append_assoc, List.length_append]
    exact Nat.le_add_right _ _

/-! ## The searches -/

theorem loneRun_iff (past rest : List Char) {n : Nat} (hn : 0 < n) :
    loneRun n past.getLast? rest = true ↔ ∃ after, RunAt (past ++ rest) past n after := by
  constructor
  · intro h
    simp only [loneRun, Bool.and_eq_true, bne_iff_ne, List.isPrefixOf_iff_prefix] at h
    obtain ⟨⟨hopens, after, hafter⟩, hcloses⟩ := h
    refine ⟨after, ?_, hn, hopens, ?_⟩
    · rw [List.append_assoc, hafter]
    · rwa [← hafter, List.drop_left' List.length_replicate] at hcloses
  · rintro ⟨after, htext, -, hopens, hcloses⟩
    rw [List.append_assoc] at htext
    rw [List.append_cancel_left htext]
    simp [loneRun, hopens, hcloses]

/-- **The search finds the maximal runs of its length**, and nothing else. -/
theorem hasLoneRun_iff (past rest : List Char) {n : Nat} (hn : 0 < n) :
    hasLoneRun n past.getLast? rest = true ↔ ∃ before after, RunAt (past ++ rest) (past ++ before) n after := by
  induction rest generalizing past with
  | nil =>
    rw [hasLoneRun, loneRun_iff _ _ hn]
    constructor
    · rintro ⟨after, h⟩
      exact ⟨[], after, by simpa only [List.append_nil] using h⟩
    · rintro ⟨before, after, h⟩
      have hnil : [] = before ++ (List.replicate n '_' ++ after) :=
        List.append_cancel_left (by simpa only [List.append_assoc] using h.text)
      obtain ⟨rfl, -⟩ := List.append_eq_nil_iff.1 hnil.symm
      exact ⟨after, by simpa only [List.append_nil] using h⟩
  | cons c rest ih =>
    have hlast : some c = (past ++ [c]).getLast? := List.getLast?_concat.symm
    have hpast : ∀ x, past ++ [c] ++ x = past ++ c :: x := fun x => by rw [List.append_assoc, List.singleton_append]
    rw [hasLoneRun, Bool.or_eq_true, loneRun_iff _ _ hn, hlast, ih]
    simp only [hpast]
    constructor
    · rintro (⟨after, h⟩ | ⟨before, after, h⟩)
      · exact ⟨[], after, by rwa [List.append_nil]⟩
      · exact ⟨c :: before, after, h⟩
    · rintro ⟨before, after, h⟩
      cases before with
      | nil => exact Or.inl ⟨after, by rwa [List.append_nil] at h⟩
      | cons d before =>
        have htext : c :: rest = d :: before ++ (List.replicate n '_' ++ after) :=
          List.append_cancel_left (by simpa only [List.append_assoc] using h.text)
        obtain rfl := (List.cons.inj htext).1
        exact Or.inr ⟨before, after, h⟩

theorem hasLoneRun_none_iff (w : List Char) {n : Nat} (hn : 0 < n) : hasLoneRun n none w = true ↔ HasRun w n :=
  hasLoneRun_iff [] w hn

/-- **The first run of two underscores is made one**, and the rest of the text stays. -/
theorem shortenPair_eq (past : List Char) {rest before after : List Char}
    (hrun : RunAt (past ++ rest) (past ++ before) 2 after)
    (hfirst : ∀ b a, RunAt (past ++ rest) (past ++ b) 2 a → before.length ≤ b.length) :
    shortenPair past.getLast? rest = before ++ '_' :: after := by
  have htext : rest = before ++ ('_' :: '_' :: after) :=
    List.append_cancel_left (by rw [hrun.text, List.append_assoc, List.append_assoc]; rfl)
  induction before generalizing past rest with
  | nil =>
    rw [List.append_nil] at hrun
    rw [List.nil_append] at htext
    have hlone : loneRun 2 past.getLast? rest = true := (loneRun_iff past rest two_pos).2 ⟨after, hrun⟩
    rw [htext] at hlone ⊢
    rw [shortenPair, if_pos hlone, List.nil_append]
  | cons c before ih =>
    rw [List.cons_append] at htext
    subst htext
    have hlone : loneRun 2 past.getLast? (c :: (before ++ '_' :: '_' :: after)) ≠ true := by
      intro h
      obtain ⟨a, ha⟩ := (loneRun_iff past _ two_pos).1 h
      have hle := hfirst [] a (by rwa [List.append_nil])
      exact absurd hle (Nat.not_succ_le_zero _)
    have hlast : some c = (past ++ [c]).getLast? := List.getLast?_concat.symm
    have hpast : ∀ x, past ++ [c] ++ x = past ++ c :: x := fun x => by rw [List.append_assoc, List.singleton_append]
    rw [shortenPair, if_neg hlone, hlast, List.cons_append]
    refine congrArg (c :: ·) (ih (past ++ [c]) ?_ ?_ rfl)
    · rwa [hpast, hpast]
    · intro b a h
      rw [hpast, hpast] at h
      exact Nat.le_of_succ_le_succ (hfirst (c :: b) a h)

theorem FirstRunAt.form_eq {w before after : List Char} (h : FirstRunAt w before 2 after) :
    shortenPair none w = before ++ '_' :: after :=
  shortenPair_eq [] h.toRunAt h.first

theorem hasTriple_iff_within (w : List Char) : hasTriple w = true ↔ triple <:+: w := by
  induction w with
  | nil => simp [hasTriple, triple]
  | cons c w ih =>
    rw [hasTriple, Bool.or_eq_true, ih, List.infix_cons_iff, List.isPrefixOf_iff_prefix]
    rfl

theorem exists_leading (w : List Char) : ∃ k rest, w = List.replicate k '_' ++ rest ∧ rest.head? ≠ some '_' := by
  induction w with
  | nil => exact ⟨0, [], rfl, by simp⟩
  | cons c w ih =>
    by_cases hc : c = '_'
    · obtain ⟨k, rest, rfl, hrest⟩ := ih
      exact ⟨k + 1, rest, by rw [hc, List.replicate_succ, List.cons_append], hrest⟩
    · exact ⟨0, c :: w, rfl, by simpa using hc⟩

theorem exists_trailing (w : List Char) : ∃ k rest, w = rest ++ List.replicate k '_' ∧ rest.getLast? ≠ some '_' := by
  obtain ⟨k, rest, hw, hrest⟩ := exists_leading w.reverse
  refine ⟨k, rest.reverse, ?_, ?_⟩
  · rw [← List.reverse_reverse w, hw, List.reverse_append, List.reverse_replicate]
  · rwa [List.getLast?_reverse]

/-- three underscores in a row lie in a maximal run of at least three -/
theorem hasTriple_iff (w : List Char) : hasTriple w = true ↔ ∃ n, 3 ≤ n ∧ HasRun w n := by
  rw [hasTriple_iff_within]
  constructor
  · rintro ⟨x, y, rfl⟩
    obtain ⟨i, before, rfl, hopens⟩ := exists_trailing x
    obtain ⟨j, after, rfl, hcloses⟩ := exists_leading y
    refine ⟨i + (3 + j), by omega, before, after, ?_, by omega, hopens, hcloses⟩
    rw [List.replicate_add, List.replicate_add]
    simp only [List.append_assoc]
    rfl
  · rintro ⟨n, hn, before, after, hrun⟩
    obtain ⟨m, rfl⟩ := Nat.exists_eq_add_of_le hn
    refine ⟨before, List.replicate m '_' ++ after, ?_⟩
    rw [hrun.text, List.replicate_add]
    simp only [List.append_assoc]
    rfl

/-! ## The suggestions -/

/-- the suggestion to write one underscore for two, with the form it quotes -/
def oneUnderscore (form : List Char) : Suggestion :=
  ⟨"double-underscore", "Use single underscore for first-level elements: \"" ++ String.ofList form ++ "\""⟩

theorem doubleUnderscore_iff (w : List Char) (s : Suggestion) : doubleUnderscore w = some s ↔
    ¬ HasRun w 1 ∧ ∃ before after, FirstRunAt w before 2 after ∧ s = oneUnderscore (before ++ '_' :: after) := by
  have hguard : (hasLoneRun 2 none w && !hasLoneRun 1 none w) = true ↔ HasRun w 2 ∧ ¬ HasRun w 1 := by
    rw [Bool.and_eq_true, Bool.not_eq_true', ← Bool.not_eq_true, hasLoneRun_none_iff w two_pos,
      hasLoneRun_none_iff w one_pos]
  unfold doubleUnderscore
  constructor
  · intro h
    split_ifs at h with hcond
    obtain ⟨htwo, hone⟩ := hguard.1 hcond
    obtain ⟨before, after, hfirst⟩ := exists_firstRun htwo
    rw [hfirst.form_eq] at h
    exact ⟨hone, before, after, hfirst, (Option.some.inj h).symm⟩
  · rintro ⟨hone, before, after, hfirst, rfl⟩
    rw [if_pos (hguard.2 ⟨⟨before, after, hfirst.toRunAt⟩, hone⟩), hfirst.form_eq]
    rfl

theorem exists_double_iff (t : String) : (∃ s ∈ diagnose t, s.check = "double-underscore") ↔
    HasRun t.toList 2 ∧ ¬ HasRun t.toList 1 := by
  simp only [mem_diagnose_double, doubleUnderscore_iff]
  constructor
  · rintro ⟨s, hone, before, after, hfirst, -⟩
    exact ⟨⟨before, after, hfirst.toRunAt⟩, hone⟩
  · rintro ⟨htwo, hone⟩
    obtain ⟨before, after, hfirst⟩ := exists_firstRun htwo
    exact ⟨_, hone, before, after, hfirst, rfl⟩

theorem exists_depth_iff (t : String) : (∃ s ∈ diagnose t, s.check = "nesting-depth") ↔
    ∃ n, 3 ≤ n ∧ HasRun t.toList n := by
  simp only [mem_diagnose_depth, nestingDepth, ← hasTriple_iff]
  cases hasTriple t.toList <;> simp

/-- the shortened run is a run of one -/
theorem RunAt.shortened {w before after : List Char} {n : Nat} (h : RunAt w before n after) :
    HasRun (before ++ '_' :: after) 1 :=
  ⟨before, after, by simp, one_pos, h.opens, h.closes⟩

theorem mem_diagnose_of_firstRun {w before after : List Char} (hone : ¬ HasRun w 1)
    (h : FirstRunAt w before 2 after) : oneUnderscore (before ++ '_' :: after) ∈ diagnose (String.ofList w) := by
  refine ((mem_diagnose_double _ _).2 ?_).1
  rw [String.toList_ofList, doubleUnderscore_iff]
  exact ⟨hone, before, after, h, rfl⟩

theorem Segment.head_ne (s : Segment) (x : List Char) : (s.1 ++ x).head? ≠ some '_' := by
  intro h
  obtain ⟨y, hy⟩ := List.head?_eq_some_iff.1 h
  exact s.append_ne_cons '_' (by decide) x y hy

/-- two segments with two underscores between them -/
theorem one_for_pair (s₁ s₂ : Segment) :
    oneUnderscore (s₁.1 ++ ['_'] ++ s₂.1) ∈ diagnose (String.ofList (s₁.1 ++ ['_', '_'] ++ s₂.1)) := by
  have hhead : s₂.1.head? ≠ some '_' := by simpa using s₂.head_ne []
  have hruns : ∀ n, HasRun (s₁.1 ++ ['_', '_'] ++ s₂.1) n ↔ n = 2 ∨ HasRun s₂.1 n := fun n =>
    hasRun_cut s₁.underscore_notMem hhead two_pos
  have hone : ¬ HasRun (s₁.1 ++ ['_', '_'] ++ s₂.1) 1 := by
    rw [hruns]
    rintro (h | h)
    · exact absurd h (by decide)
    · exact not_hasRun s₂.underscore_notMem 1 h
  have hmem := mem_diagnose_of_firstRun hone (firstRun_cut s₁.underscore_notMem hhead two_pos)
  rwa [List.append_assoc _ ['_']]

/-- three segments with two underscores between them each time -/
theorem one_for_first_pair (s₁ s₂ s₃ : Segment) :
    oneUnderscore (s₁.1 ++ ['_'] ++ s₂.1 ++ ['_', '_'] ++ s₃.1) ∈
      diagnose (String.ofList (s₁.1 ++ ['_', '_'] ++ s₂.1 ++ ['_', '_'] ++ s₃.1)) := by
  have hhead₃ : s₃.1.head? ≠ some '_' := by simpa using s₃.head_ne []
  have hhead₂ : (s₂.1 ++ ['_', '_'] ++ s₃.1).head? ≠ some '_' := by
    rw [List.append_assoc]
    exact s₂.head_ne _
  have hruns : ∀ n, HasRun (s₁.1 ++ ['_', '_'] ++ (s₂.1 ++ ['_', '_'] ++ s₃.1)) n ↔
      n = 2 ∨ n = 2 ∨ HasRun s₃.1 n := by
    intro n
    rw [← hasRun_cut (k := 2) s₂.underscore_notMem hhead₃ two_pos]
    exact hasRun_cut s₁.underscore_notMem hhead₂ two_pos
  have hone : ¬ HasRun (s₁.1 ++ ['_', '_'] ++ (s₂.1 ++ ['_', '_'] ++ s₃.1)) 1 := by
    rw [hruns]
    rintro (h | h | h)
    · exact absurd h (by decide)
    · exact absurd h (by decide)
    · exact not_hasRun s₃.underscore_notMem 1 h
  have hmem := mem_diagnose_of_firstRun hone (firstRun_cut s₁.underscore_notMem hhead₂ two_pos)
  simpa only [List.append_assoc, List.cons_append, List.nil_append] using hmem

theorem classify_element (rules : Rules) (s₁ s₂ : Segment) :
    classify rules (String.ofList (s₁.1 ++ ['_'] ++ s₂.1)) = some .element := by
  refine classify_of_early (by decide) ((isElement_iff _).2 ⟨s₁, s₂, ?_⟩)
  rw [String.toList_ofList]

theorem classify_nestedElement (rules : Rules) (s₁ s₂ s₃ : Segment) :
    classify rules (String.ofList (s₁.1 ++ ['_'] ++ s₂.1 ++ ['_', '_'] ++ s₃.1)) = some .nestedElement := by
  refine classify_of_early (by decide) ((isNestedElement_iff _).2 ⟨s₁, s₂, s₃, ?_⟩)
  rw [String.toList_ofList]

/-- **The underscore suggestions follow the runs of underscores, and the repair works.** One underscore for two is
suggested exactly if some maximal run is of two and none of one, and less depth exactly if some is of at least three.
The form that is quoted is the token with the first run of two made one, and it does not bring the suggestion up again.
Two segments with two underscores between them are repaired to the element, and three to the nested element. -/
theorem suggestions_follow_runs (rules : Rules) (t : String) :
    ((∃ s ∈ diagnose t, s.check = "double-underscore") ↔ HasRun t.toList 2 ∧ ¬ HasRun t.toList 1) ∧
    ((∃ s ∈ diagnose t, s.check = "nesting-depth") ↔ ∃ n, 3 ≤ n ∧ HasRun t.toList n) ∧
    (∀ s ∈ diagnose t, s.check = "double-underscore" → ∃ before after, FirstRunAt t.toList before 2 after ∧
      s = oneUnderscore (before ++ '_' :: after) ∧
      ∀ s' ∈ diagnose (String.ofList (before ++ '_' :: after)), s'.check ≠ "double-underscore") ∧
    (∀ s₁ s₂ : Segment,
      oneUnderscore (s₁.1 ++ ['_'] ++ s₂.1) ∈ diagnose (String.ofList (s₁.1 ++ ['_', '_'] ++ s₂.1)) ∧
      classify rules (String.ofList (s₁.1 ++ ['_'] ++ s₂.1)) = some .element) ∧
    (∀ s₁ s₂ s₃ : Segment,
      oneUnderscore (s₁.1 ++ ['_'] ++ s₂.1 ++ ['_', '_'] ++ s₃.1) ∈
        diagnose (String.ofList (s₁.1 ++ ['_', '_'] ++ s₂.1 ++ ['_', '_'] ++ s₃.1)) ∧
      classify rules (String.ofList (s₁.1 ++ ['_'] ++ s₂.1 ++ ['_', '_'] ++ s₃.1)) = some .nestedElement) := by
  refine ⟨exists_double_iff t, exists_depth_iff t, ?_, ?_, ?_⟩
  · intro s hs hcheck
    obtain ⟨-, before, after, hfirst, hform⟩ := (doubleUnderscore_iff _ s).1 ((mem_diagnose_double t s).1 ⟨hs, hcheck⟩)
    refine ⟨before, after, hfirst, hform, ?_⟩
    intro s' hs' hcheck'
    have hagain := (exists_double_iff _).1 ⟨s', hs', hcheck'⟩
    rw [String.toList_ofList] at hagain
    exact hagain.2 hfirst.toRunAt.shortened
  · intro s₁ s₂
    exact ⟨one_for_pair s₁ s₂, classify_element rules s₁ s₂⟩
  · intro s₁ s₂ s₃
    exact ⟨one_for_first_pair s₁ s₂ s₃, classify_nestedElement rules s₁ s₂ s₃⟩

/-- with runs of two, three and two, the first one is shortened -/
theorem suggestions_follow_runs_mixed :
    oneUnderscore "a_b___c__d".toList ∈ diagnose "a__b___c__d" ∧
    ∃ before after, FirstRunAt "a__b___c__d".toList before 2 after ∧
      oneUnderscore "a_b___c__d".toList = oneUnderscore (before ++ '_' :: after) ∧
      ∀ s' ∈ diagnose (String.ofList (before ++ '_' :: after)), s'.check ≠ "double-underscore" := by
  have hmem : oneUnderscore "a_b___c__d".toList ∈ diagnose "a__b___c__d" := by decide
  exact ⟨hmem, (suggestions_follow_runs .default "a__b___c__d").2.2.1 _ hmem rfl⟩

end ClassNaming
