/-
The class names of a selector.

A name begins behind a dot, where a letter or an underscore stands, and goes on as long as there are name characters.
The search goes on behind each name that it has taken. That skips no name, because there is no dot in one.

- `dottedNames_eq_runsAfter`: the names found are the longest runs of name characters behind dots.
- `dottedNames_append`: the names of two texts, if no name goes on across the seam.
- `selector_exact`: what this comes to for a selector.
-/
import ClassNaming.Extract.Selector
import ClassNaming.Proofs.Extract.Runs
import ClassNaming.Text.Blank

namespace ClassNaming.Extract

/-! ## The characters of names -/

/-- the characters of names by code point -/
theorem isNamePart_iff (c : Char) : isNamePart c = true ↔
    (97 ≤ c.toNat ∧ c.toNat ≤ 122) ∨ (65 ≤ c.toNat ∧ c.toNat ≤ 90) ∨ c.toNat = 95 ∨ (48 ≤ c.toNat ∧ c.toNat ≤ 57) ∨
      c.toNat = 45 := by
  have hunder : c = '_' ↔ c.toNat = 95 := Char.toNat_inj.symm
  have hhyphen : c = '-' ↔ c.toNat = 45 := Char.toNat_inj.symm
  simp only [isNamePart, isNameStart, Bool.or_eq_true, Bool.and_eq_true, decide_eq_true_eq, beq_iff_eq, Char.le_def,
    UInt32.le_iff_toNat_le, hunder, hhyphen]
  simp [← Char.toNat_val, or_assoc]

theorem not_blank_of_part {c : Char} (h : isNamePart c = true) : Text.isBlank c = false := by
  rw [isNamePart_iff] at h
  rw [Bool.eq_false_iff]
  simp only [Text.isBlank, ne_eq, Bool.or_eq_true, Bool.and_eq_true, decide_eq_true_eq, beq_iff_eq]
  omega

theorem isNamePart_of_start {c : Char} (h : isNameStart c = true) : isNamePart c = true := by
  simp [isNamePart, h]

theorem not_part_of_blank {c : Char} (h : Text.isBlank c = true) : isNamePart c = false := by
  rw [Bool.eq_false_iff]
  intro hpart
  rw [not_blank_of_part hpart] at h
  cases h

theorem isNamePart_ne_dot {c : Char} (h : isNamePart c = true) : c ≠ '.' := by
  rintro rfl
  exact absurd h (by decide)

/-! ## Names behind dots -/

/-- a name begins behind a dot -/
def nameEdge (before : Option Char) (c : Char) : Bool := before == some '.' && isNameStart c

theorem nameEdge_of_ne {before : Option Char} (h : before ≠ some '.') (c : Char) : nameEdge before c = false := by
  simp [nameEdge, h]

/-- the names behind the dots of what is left of a text, with the character before it -/
abbrev namesAfter (before : Option Char) (cs : List Char) : List (List Char) :=
  runsAfter isNamePart nameEdge before cs

/-- no name begins in a text without a dot, or at its end -/
theorem namesAfter_undotted {xs : List Char} (h : '.' ∉ xs) {before : Option Char} (hbefore : before ≠ some '.')
    (rest : List Char) : namesAfter before (xs ++ rest) = namesAfter none rest := by
  induction xs generalizing before with
  | nil =>
    refine runsAfter_congr fun c _ => ?_
    rw [nameEdge_of_ne hbefore, nameEdge_of_ne (Option.some_ne_none _).symm]
  | cons x xs ih =>
    rw [List.mem_cons, not_or] at h
    rw [List.cons_append, namesAfter, runsAfter_skip (nameEdge_of_ne hbefore x)]
    exact ih h.2 fun hx => h.1 (Option.some.inj hx).symm

/-- **The names found are the longest runs behind dots.** -/
theorem dottedNames_eq_runsAfter (cs : List Char) : dottedNames cs = namesAfter none cs := by
  have hnone : ∀ c, nameEdge none c = false := nameEdge_of_ne (Option.some_ne_none _).symm
  fun_induction dottedNames cs with
  | case1 => rfl
  | case2 c => exact (runsAfter_skip (hnone c) []).symm
  | case3 c d more h ih =>
    obtain ⟨rfl, hstart⟩ : c = '.' ∧ isNameStart d = true := by simpa using h
    have hpart : isNamePart d = true := isNamePart_of_start hstart
    -- what has been taken has no dot, so no name begins in it
    have hdot : '.' ∉ more.takeWhile isNamePart := fun hmem =>
      isNamePart_ne_dot (List.all_eq_true.1 List.all_takeWhile _ hmem) rfl
    have hbehind : namesAfter (some d) more = namesAfter none (more.dropWhile isNamePart) := by
      have hlast : some d ≠ some '.' := by simpa using isNamePart_ne_dot hpart
      have hpass := namesAfter_undotted hdot hlast (more.dropWhile isNamePart)
      rwa [List.takeWhile_append_dropWhile] at hpass
    have hedge : nameEdge (some '.') d = true := by simp [nameEdge, hstart]
    calc (d :: more.takeWhile isNamePart) :: dottedNames (more.dropWhile isNamePart)
        = (d :: more).takeWhile isNamePart :: namesAfter (some d) more := by
          rw [ih, List.takeWhile_cons_of_pos hpart, hbehind]
      _ = namesAfter (some '.') (d :: more) := (runsAfter_take hedge more).symm
      _ = namesAfter none ('.' :: d :: more) := (runsAfter_skip (hnone '.') (d :: more)).symm
  | case4 c d more h ih =>
    have hedge : ∀ x ∈ (d :: more).head?, nameEdge (some c) x = nameEdge none x := by
      intro x hx
      obtain rfl : d = x := by simpa using hx
      rw [hnone, nameEdge]
      simpa using h
    calc dottedNames (d :: more) = namesAfter none (d :: more) := ih
      _ = namesAfter (some c) (d :: more) := (runsAfter_congr hedge).symm
      _ = namesAfter none (c :: d :: more) := (runsAfter_skip (hnone c) (d :: more)).symm

/-- **The names of two texts.** If no name goes on across the seam, they come one after the other. -/
theorem dottedNames_append {xs ys : List Char} (h : ∀ c ∈ ys.head?, isNamePart c = false) :
    dottedNames (xs ++ ys) = dottedNames xs ++ dottedNames ys := by
  have hseam : ∀ before : Option Char, namesAfter before ys = namesAfter none ys := by
    refine fun before => runsAfter_congr fun c hc => ?_
    have hstart : isNameStart c = false := by
      have hpart := h c hc
      rw [isNamePart, Bool.or_eq_false_iff, Bool.or_eq_false_iff] at hpart
      exact hpart.1.1
    simp [nameEdge, hstart]
  simp only [dottedNames_eq_runsAfter]
  exact (runsAfter_append h).trans (congrArg _ (hseam _))

/-! ## Selectors -/

/-- **The class names of a selector.** They are the longest runs of name characters that begin behind a dot with a
letter or an underscore, one for each such place, in the order of the text. So the names of two texts come one after the
other if the second does not go on with a name character. -/
theorem selector_exact (s t : String) :
    (∀ runs, RunsAt isNamePart nameEdge s.toList runs ↔ runs = (selector s).map String.toList) ∧
    ((∀ c ∈ t.toList.head?, isNamePart c = false) → selector (s ++ t) = selector s ++ selector t) := by
  constructor
  · intro runs
    have hnames : (selector s).map String.toList = dottedNames s.toList := by
      simp [selector, Function.comp_def]
    rw [runsAt_iff, hnames, dottedNames_eq_runsAfter]
  · intro h
    rw [selector, String.toList_append, dottedNames_append h, List.map_append]
    rfl

/-- a dot at the seam of two texts -/
theorem selector_exact_seam : (∀ c ∈ ".b:c".toList.head?, isNamePart c = false) ∧
    selector ("a.._x-1" ++ ".b:c") = ["_x-1", "b"] := by
  have hseam : ∀ c ∈ ".b:c".toList.head?, isNamePart c = false := by
    intro c hc
    obtain rfl : '.' = c := Option.some.inj hc
    decide
  refine ⟨hseam, ?_⟩
  rw [(selector_exact "a.._x-1" ".b:c").2 hseam]
  decide +kernel

end ClassNaming.Extract
