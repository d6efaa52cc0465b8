/-
Searching a text for a pattern, against matching the whole of it.

- `found_iff`: a plain pattern is found in a text exactly if it takes some part of the text where that part stands.
- `takes_anchored`: between the marks for start and end a pattern takes the whole text, or all of it but a last line
  feed.
- `found_anchoredAny`, `fullMatches_anchoredAny`: so one of several such patterns is found exactly if it matches the
  whole text, a last line feed apart.
-/
import ClassNaming.Proofs.Pattern.Language

namespace ClassNaming.Pattern

/-! ## Plain patterns -/

theorem run_some_isSome {p : Pattern} (hp : p.isPlain = true) (past rest : List Char) :
    (run p ⟨past, rest, []⟩ some).isSome ↔ ∃ w after, rest = w ++ after ∧ p.Takes past w after := by
  have h := tries_run p hp ⟨past, rest, []⟩ some (fun _ _ => True) (by intros; simp)
  simpa using h

theorem foundFrom_iff {p : Pattern} (hp : p.isPlain = true) (past rest : List Char) :
    p.foundFrom past rest = true ↔
      ∃ before w after, rest = before ++ w ++ after ∧ p.Takes (before.reverse ++ past) w after := by
  induction rest generalizing past with
  | nil =>
    rw [foundFrom, run_some_isSome hp]
    constructor
    · rintro ⟨w, after, heq, hw⟩
      exact ⟨[], w, after, heq, hw⟩
    · rintro ⟨before, w, after, heq, hw⟩
      obtain ⟨rfl, rfl, rfl⟩ : before = [] ∧ w = [] ∧ after = [] := by simpa using heq.symm
      exact ⟨[], [], rfl, hw⟩
  | cons c rest ih =>
    rw [foundFrom, Bool.or_eq_true, run_some_isSome hp, ih]
    constructor
    · intro h
      rcases h with ⟨w, after, heq, hw⟩ | ⟨before, w, after, rfl, hw⟩
      · exact ⟨[], w, after, heq, hw⟩
      · exact ⟨c :: before, w, after, rfl, by simpa using hw⟩
    · rintro ⟨before, w, after, heq, hw⟩
      cases before with
      | nil => exact Or.inl ⟨w, after, heq, hw⟩
      | cons d before =>
        obtain ⟨rfl, rfl⟩ := List.cons.inj heq
        exact Or.inr ⟨before, w, after, rfl, by simpa using hw⟩

/-- **Searches.** A plain pattern is found in a text exactly if it takes some part of it. -/
theorem found_iff {p : Pattern} (hp : p.isPlain = true) (t : String) :
    p.found t = true ↔ ∃ before w after, t.toList = before ++ w ++ after ∧ p.Takes before.reverse w after := by
  rw [found, foundFrom_iff hp]
  simp only [List.append_nil]

/-! ## Choices -/

theorem takes_choice {ps : List Pattern} (hne : ps ≠ []) (past w rest : List Char) :
    (choice ps).Takes past w rest ↔ ∃ p ∈ ps, p.Takes past w rest := by
  induction ps with
  | nil => exact absurd rfl hne
  | cons p ps ih =>
    cases ps with
    | nil => simp [choice]
    | cons q qs =>
      have hrest := ih (by simp)
      change Takes p past w rest ∨ Takes (choice (q :: qs)) past w rest ↔ _
      rw [hrest]
      exact (List.exists_mem_cons_iff (Takes · past w rest) p (q :: qs)).symm

theorem isPlain_choice {ps : List Pattern} (h : ∀ p ∈ ps, p.isPlain = true) : (choice ps).isPlain = true := by
  induction ps with
  | nil => rfl
  | cons p ps ih =>
    have hps := ih fun q hq => h q (List.mem_cons_of_mem p hq)
    cases ps with
    | nil => exact h p List.mem_cons_self
    | cons q qs => simp [choice, isPlain, h p List.mem_cons_self, hps]

/-! ## Patterns between the marks for start and end -/

theorem isPlain_anchored {ps : List Pattern} (h : ∀ p ∈ ps, p.isFree = true) : (anchored ps).isPlain = true := by
  apply sequence_all rfl (fun _ _ => rfl)
  intro p hp
  simp only [List.mem_append, List.mem_singleton] at hp
  rcases hp with (rfl | hp) | rfl
  · rfl
  · exact isPlain_of_isFree (h p hp)
  · rfl

/-- the end mark allows a line feed after it -/
theorem takes_anchored {ps : List Pattern} (h : ∀ p ∈ ps, p.isFree = true) (past w rest : List Char) :
    (anchored ps).Takes past w rest ↔
      past = [] ∧ w ∈ (sequence ps).language ∧ (rest = [] ∨ rest = ['\n']) := by
  have hfree : (sequence ps).isFree = true := sequence_all rfl (fun _ _ => rfl) h
  have hstart : ∀ past rest, Anchor.holds ⟨past, rest, []⟩ .textStart = true ↔ past = [] := by
    intro past rest
    simp [Anchor.holds]
  have hend : ∀ past rest, Anchor.holds ⟨past, rest, []⟩ .lastLineEnd = true ↔ rest = [] ∨ rest = ['\n'] := by
    intro past rest
    simp [Anchor.holds]
  rw [anchored, takes_sequence_append, takes_sequence_append]
  constructor
  · rintro ⟨_, _, rfl, ⟨_, w, rfl, ⟨rfl, hpast⟩, hw⟩, ⟨rfl, hrest⟩⟩
    exact ⟨(hstart _ _).1 hpast, (takes_iff_mem_language hfree _ _ _).1 (by simpa using hw), (hend _ _).1 hrest⟩
  · rintro ⟨rfl, hw, hrest⟩
    refine ⟨w, [], by simp, ⟨[], w, rfl, ⟨rfl, (hstart _ _).2 rfl⟩, ?_⟩, ⟨rfl, (hend _ _).2 hrest⟩⟩
    exact (takes_iff_mem_language hfree _ _ _).2 hw

/-- one of several sequences, each between the marks -/
def anchoredAny (pss : List (List Pattern)) : Pattern := choice (pss.map anchored)

section

variable {pss : List (List Pattern)} (hne : pss ≠ []) (hfree : ∀ ps ∈ pss, ∀ p ∈ ps, p.isFree = true)
include hfree

theorem isPlain_anchoredAny : (anchoredAny pss).isPlain = true := by
  apply isPlain_choice
  intro p hp
  obtain ⟨ps, hps, rfl⟩ := List.mem_map.1 hp
  exact isPlain_anchored (hfree ps hps)

include hne

theorem takes_anchoredAny (past w rest : List Char) : (anchoredAny pss).Takes past w rest ↔
    past = [] ∧ (∃ ps ∈ pss, w ∈ (sequence ps).language) ∧ (rest = [] ∨ rest = ['\n']) := by
  rw [anchoredAny, takes_choice (by simpa using hne)]
  constructor
  · rintro ⟨p, hp, hw⟩
    obtain ⟨ps, hps, rfl⟩ := List.mem_map.1 hp
    obtain ⟨hpast, hmem, hrest⟩ := (takes_anchored (hfree ps hps) past w rest).1 hw
    exact ⟨hpast, ⟨ps, hps, hmem⟩, hrest⟩
  · rintro ⟨hpast, ⟨ps, hps, hmem⟩, hrest⟩
    exact ⟨_, List.mem_map_of_mem hps, (takes_anchored (hfree ps hps) past w rest).2 ⟨hpast, hmem, hrest⟩⟩

theorem fullMatches_anchoredAny (t : String) :
    (anchoredAny pss).fullMatches t = true ↔ ∃ ps ∈ pss, t.toList ∈ (sequence ps).language := by
  rw [fullMatches_iff _ (isPlain_anchoredAny hfree), takes_anchoredAny hne hfree]
  simp

/-- **A search finds what a whole match takes, a last line feed apart.** -/
theorem found_anchoredAny (t : String) : (anchoredAny pss).found t = true ↔
    ∃ w, (∃ ps ∈ pss, w ∈ (sequence ps).language) ∧ (t.toList = w ∨ t.toList = w ++ ['\n']) := by
  rw [found_iff (isPlain_anchoredAny hfree)]
  simp only [takes_anchoredAny hne hfree, List.reverse_eq_nil_iff]
  constructor
  · rintro ⟨_, w, after, ht, rfl, hw, rfl | rfl⟩
    · exact ⟨w, hw, Or.inl (by simpa using ht)⟩
    · exact ⟨w, hw, Or.inr (by simpa using ht)⟩
  · rintro ⟨w, hw, ht | ht⟩
    · exact ⟨[], w, [], by simpa using ht, rfl, hw, Or.inl rfl⟩
    · exact ⟨[], w, ['\n'], by simpa using ht, rfl, hw, Or.inr rfl⟩

/-- on one line a search and a whole match come to the same -/
theorem found_iff_fullMatches {t : String} (ht : '\n' ∉ t.toList) :
    (anchoredAny pss).found t = true ↔ (anchoredAny pss).fullMatches t = true := by
  rw [found_anchoredAny hne hfree, fullMatches_anchoredAny hne hfree]
  constructor
  · rintro ⟨w, hw, heq | heq⟩
    · exact heq ▸ hw
    · exact absurd (by simp [heq]) ht
  · intro h
    exact ⟨_, h, Or.inl rfl⟩

end

end ClassNaming.Pattern
