/-
Texts in lower case.

The table of lower-case mappings is a list of runs of code points. None of them maps into another one, so a character
that a run has been applied to is left alone from then on.

- `lower_of_small`: letters of ASCII that are not capitals, digits and signs are their own lower case.
- `lower_lower`: a text in lower case is its own lower case.
-/
import Mathlib.Data.List.Basic
import ClassNaming.Text.Case

namespace ClassNaming.Text

/-! ## Runs of the table -/

/-- the code point is one that the run maps -/
def Covers (run : Nat × Nat × Nat × Int) (n : Nat) : Prop :=
  run.1 ≤ n ∧ n ≤ run.2.1 ∧ (n - run.1) % run.2.2.1 = 0

/-- no run for lower case maps the code point -/
def Unmapped (n : Nat) : Prop := ∀ run ∈ lowerRuns.toList, ¬ Covers run n

theorem mapRuns_of_unmapped {n : Nat} (h : Unmapped n) : mapRuns lowerRuns n = n := by
  unfold mapRuns
  split
  · rename_i lo hi step delta hfound
    have hrun := Array.find?_some hfound
    simp only [Bool.and_eq_true, decide_eq_true_eq, beq_iff_eq] at hrun
    exact absurd ⟨hrun.1.1, hrun.1.2, hrun.2⟩ (h _ (Array.mem_toList_iff.2 (Array.mem_of_find?_eq_some hfound)))
  · rfl

/-- a code point that is mapped is moved by the first run that covers it -/
theorem mapRuns_cases (n : Nat) : mapRuns lowerRuns n = n ∧ Unmapped n ∨
    ∃ run ∈ lowerRuns.toList, Covers run n ∧ mapRuns lowerRuns n = (n + run.2.2.2).toNat := by
  unfold mapRuns
  split
  · rename_i lo hi step delta hfound
    have hrun := Array.find?_some hfound
    simp only [Bool.and_eq_true, decide_eq_true_eq, beq_iff_eq] at hrun
    exact Or.inr ⟨_, Array.mem_toList_iff.2 (Array.mem_of_find?_eq_some hfound), ⟨hrun.1.1, hrun.1.2, hrun.2⟩, rfl⟩
  · rename_i hnone
    refine Or.inl ⟨rfl, ?_⟩
    intro run hrun hcovers
    have hno := Array.find?_eq_none.1 hnone run (Array.mem_toList_iff.1 hrun)
    simp only [Bool.and_eq_true, decide_eq_true_eq, beq_iff_eq] at hno
    exact hno ⟨⟨hcovers.1, hcovers.2.1⟩, hcovers.2.2⟩

/-- the runs of the table stay clear of ASCII, capitals apart -/
theorem lowerRuns_clear : ∀ run ∈ lowerRuns.toList, 0x41 ≤ run.1 ∧ (run.2.1 ≤ 0x5a ∨ 0x80 ≤ run.1) := by
  decide +kernel

/-- nothing from `low` to `high` in steps of `step` is mapped by the run: it ends before the run or begins behind it, or
both take every second code point and take turns -/
def clearOf (low high step : Nat) (run : Nat × Nat × Nat × Int) : Bool :=
  bif Nat.ble run.1 high then
    bif Nat.ble low run.2.1 then run.2.2.1 == 2 && (step == 2 || low == high) && low % 2 != run.1 % 2 else true
  else true

/-- where the run maps to, no run maps anything, and the dotted capital does not lie there -/
def landsClear (run : Nat × Nat × Nat × Int) : Bool :=
  let low := ((run.1 : Int) + run.2.2.2).toNat
  let high := ((run.2.1 : Int) + run.2.2.2).toNat
  decide (0 ≤ (run.1 : Int) + run.2.2.2) && (Nat.blt high 0x130 || Nat.blt 0x130 low) &&
    lowerRuns.toList.all (clearOf low high run.2.2.1)

theorem lowerRuns_land_clear : lowerRuns.toList.all landsClear = true := by decide +kernel

theorem not_covers_of_clearOf {low high step n : Nat} {run : Nat × Nat × Nat × Int} (h : clearOf low high step run = true)
    (hlow : low ≤ n) (hhigh : n ≤ high) (hstep : step = 2 → (n - low) % 2 = 0) : ¬ Covers run n := by
  rintro ⟨hlo, hhi, hmod⟩
  have hbefore : Nat.ble run.1 high = true := Nat.ble_eq_true_of_le (Nat.le_trans hlo hhigh)
  have hbehind : Nat.ble low run.2.1 = true := Nat.ble_eq_true_of_le (Nat.le_trans hlow hhi)
  rw [clearOf, hbefore, hbehind, cond_true, cond_true] at h
  simp only [Bool.and_eq_true, Bool.or_eq_true, beq_iff_eq, bne_iff_ne] at h
  obtain ⟨⟨htwo, hsteps⟩, hparity⟩ := h
  rw [htwo] at hmod
  rcases hsteps with hsteps | hsingle
  · have hturns := hstep hsteps
    omega
  · omega

/-- what a run maps to is not mapped again -/
theorem unmapped_of_covers {run : Nat × Nat × Nat × Int} (hrun : run ∈ lowerRuns.toList) {n : Nat} (h : Covers run n) :
    Unmapped (n + run.2.2.2).toNat ∧ (n + run.2.2.2).toNat ≠ 0x130 := by
  obtain ⟨lo, hi, step, delta⟩ := run
  obtain ⟨hlo, hhi, hmod⟩ := h
  have hclear := List.all_eq_true.1 lowerRuns_land_clear _ hrun
  simp only [landsClear, Bool.and_eq_true, decide_eq_true_eq, Bool.or_eq_true, Nat.blt_eq] at hclear
  obtain ⟨⟨hstart, hdotted⟩, hall⟩ := hclear
  dsimp only at hlo hhi hmod ⊢
  refine ⟨?_, by omega⟩
  intro other hother
  apply not_covers_of_clearOf (List.all_eq_true.1 hall other hother) (by omega) (by omega)
  rintro rfl
  omega

/-! ## Characters and texts -/

/-- a character that stays as it is in lower case -/
def IsLowered (c : Char) : Prop := Unmapped c.toNat ∧ c.toNat ≠ 0x130

theorem IsLowered.ne_sigma {c : Char} (h : IsLowered c) : c ≠ 'Σ' := by
  rintro rfl
  exact h.1 (0x3a3, 0x3ab, 1, 32) (by decide +kernel) (by unfold Covers; decide)

theorem lowerAfter_of_lowered {cs : List Char} (h : ∀ c ∈ cs, IsLowered c) (past : List Char) :
    lowerAfter past cs = cs := by
  induction cs generalizing past with
  | nil => rfl
  | cons c cs ih =>
    have hc := h c List.mem_cons_self
    have hsigma : (c == 'Σ') = false := beq_eq_false_iff_ne.2 hc.ne_sigma
    have hdotted : (c.toNat == 0x130) = false := beq_eq_false_iff_ne.2 hc.2
    rw [lowerAfter, lowerBetween, hsigma, hdotted, mapRuns_of_unmapped hc.1, Char.ofNat_toNat,
      ih fun d hd => h d (List.mem_cons_of_mem c hd)]
    rfl

/-- a character of ASCII that is no capital -/
def isSmall (c : Char) : Bool := c.toNat < 0x41 || (0x5a < c.toNat && c.toNat < 0x80)

theorem unmapped_of_small {n : Nat} (h : n < 0x41 ∨ 0x5a < n ∧ n < 0x80) : Unmapped n := by
  intro run hrun hcovers
  have hclear := lowerRuns_clear run hrun
  have hlo := hcovers.1
  have hhi := hcovers.2.1
  omega

theorem isLowered_of_small {c : Char} (h : isSmall c = true) : IsLowered c := by
  have hrange : c.toNat < 0x41 ∨ 0x5a < c.toNat ∧ c.toNat < 0x80 := by simpa [isSmall] using h
  exact ⟨unmapped_of_small hrange, by omega⟩

theorem lower_of_small {s : String} (h : s.toList.all isSmall = true) : lower s = s := by
  have hlowered : ∀ c ∈ s.toList, IsLowered c := fun c hc => isLowered_of_small (List.all_eq_true.1 h c hc)
  rw [lower, lowerAfter_of_lowered hlowered, String.ofList_toList]

/-- a number that is no code point gives the character of zero -/
theorem toNat_ofNat_or (n : Nat) : (Char.ofNat n).toNat = n ∨ (Char.ofNat n).toNat = 0 := by
  by_cases hvalid : n.isValidChar
  · have heq : Char.ofNat n = Char.ofNatAux n hvalid := dif_pos hvalid
    rw [heq]
    exact Or.inl rfl
  · have heq : Char.ofNat n = '\x00' := dif_neg hvalid
    rw [heq]
    exact Or.inr rfl

theorem isLowered_mapRuns (c : Char) (h : c.toNat ≠ 0x130) : IsLowered (Char.ofNat (mapRuns lowerRuns c.toNat)) := by
  have hland : Unmapped (mapRuns lowerRuns c.toNat) ∧ mapRuns lowerRuns c.toNat ≠ 0x130 := by
    rcases mapRuns_cases c.toNat with ⟨heq, hunmapped⟩ | ⟨run, hrun, hcovers, heq⟩
    · rw [heq]
      exact ⟨hunmapped, h⟩
    · rw [heq]
      exact unmapped_of_covers hrun hcovers
  unfold IsLowered
  rcases toNat_ofNat_or (mapRuns lowerRuns c.toNat) with heq | heq
  · rw [heq]
    exact hland
  · rw [heq]
    exact ⟨unmapped_of_small (Or.inl (by decide)), by decide⟩

theorem isLowered_lowerBetween (past : List Char) (c : Char) (rest : List Char) :
    ∀ d ∈ lowerBetween past c rest, IsLowered d := by
  have hsigma : IsLowered 'ς' ∧ IsLowered 'σ' := by
    unfold IsLowered Unmapped Covers
    decide +kernel
  have hdot : IsLowered (Char.ofNat 0x307) := by
    unfold IsLowered Unmapped Covers
    decide +kernel
  intro d hd
  unfold lowerBetween at hd
  split_ifs at hd with hfinal hlast hdotted
  · rw [List.mem_singleton.1 hd]
    exact hsigma.1
  · rw [List.mem_singleton.1 hd]
    exact hsigma.2
  · rcases List.mem_pair.1 hd with rfl | rfl
    · exact isLowered_of_small (by decide)
    · exact hdot
  · rw [List.mem_singleton.1 hd]
    exact isLowered_mapRuns c (by simpa using hdotted)

theorem isLowered_lowerAfter (past cs : List Char) : ∀ d ∈ lowerAfter past cs, IsLowered d := by
  induction cs generalizing past with
  | nil => exact fun d hd => absurd hd List.not_mem_nil
  | cons c cs ih =>
    intro d hd
    rw [lowerAfter] at hd
    rcases List.mem_append.1 hd with hd | hd
    · exact isLowered_lowerBetween past c cs d hd
    · exact ih (c :: past) d hd

/-- **Lower case of lower case.** -/
theorem lower_lower (s : String) : lower (lower s) = lower s := by
  unfold lower
  rw [String.toList_ofList, lowerAfter_of_lowered (isLowered_lowerAfter [] s.toList)]

end ClassNaming.Text
