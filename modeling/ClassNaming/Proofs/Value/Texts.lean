/-
Lists of texts, and joining them.

- `allText_iff`: a list with nothing but texts is one that texts are made into.
- `joinTexts_texts`: texts are joined with a gap between them.
- `joinTexts_fails`: a list with anything else is not joined, and the failure names its first item that is no text.
-/
import Mathlib.Tactic
import ClassNaming.Value.Walk

namespace ClassNaming

/-- texts only -/
def AllText (lines : List Value) : Prop := ∀ line ∈ lines, ∃ s, line = .text s

theorem AllText.append {lines more : List Value} (h : AllText lines) (h' : AllText more) : AllText (lines ++ more) :=
  List.forall_mem_append.2 ⟨h, h'⟩

theorem AllText.cons {lines : List Value} (s : String) (h : AllText lines) : AllText (.text s :: lines) :=
  List.forall_mem_cons.2 ⟨⟨s, rfl⟩, h⟩

theorem AllText.nil : AllText [] := by simp [AllText]

theorem allText_texts (items : List String) : AllText (items.map Value.text) := by
  intro line hline
  obtain ⟨s, -, rfl⟩ := List.mem_map.1 hline
  exact ⟨s, rfl⟩

theorem allText_iff (lines : List Value) : AllText lines ↔ ∃ items : List String, lines = items.map Value.text := by
  constructor
  · intro h
    induction lines with
    | nil => exact ⟨[], rfl⟩
    | cons line lines ih =>
      obtain ⟨⟨s, rfl⟩, hrest⟩ := List.forall_mem_cons.1 h
      obtain ⟨items, rfl⟩ := ih hrest
      exact ⟨s :: items, rfl⟩
  · rintro ⟨items, rfl⟩
    exact allText_texts items

namespace Value

theorem texts_inj {xs ys : List String} : texts xs = texts ys ↔ xs = ys := by
  constructor
  · intro h
    have hmap : xs.map text = ys.map text := Value.list.inj h
    exact List.map_injective_iff.2 (fun _ _ heq => by cases heq; rfl) hmap
  · exact congrArg texts

theorem textsFrom_texts (items : List String) (i : Nat) : textsFrom i (items.map text) = .ok items := by
  induction items generalizing i with
  | nil => rfl
  | cons s items ih =>
    simp [textsFrom, textAt, ih, bind, Except.bind, pure, Except.pure]

theorem joinTexts_texts (gap : String) (items : List String) :
    joinTexts gap (items.map text) = .ok (gap.intercalate items) := by
  simp [joinTexts, textsFrom_texts, bind, Except.bind, pure, Except.pure]

theorem textAt_of_notText {v : Value} (h : ∀ s, v ≠ .text s) (i : Nat) :
    v.textAt i = .error (.notText i v.typeName) := by
  unfold textAt
  split
  · exact absurd rfl (h _)
  · rfl

/-- the reading of texts stops at the first item that is none -/
theorem textsFrom_fails (before : List String) {v : Value} (h : ∀ s, v ≠ .text s) (after : List Value) (i : Nat) :
    textsFrom i (before.map text ++ v :: after) = .error (.notText (i + before.length) v.typeName) := by
  induction before generalizing i with
  | nil => simp [textsFrom, textAt_of_notText h, bind, Except.bind]
  | cons s before ih =>
    have hplace : i + 1 + before.length = i + (before.length + 1) := by omega
    simp [textsFrom, textAt, ih, hplace, bind, Except.bind]

/-- a list that is not all texts, at its first item that is none -/
theorem exists_notText {vs : List Value} (h : ¬ AllText vs) :
    ∃ (before : List String) (v : Value) (after : List Value),
      vs = before.map text ++ v :: after ∧ ∀ s, v ≠ .text s := by
  induction vs with
  | nil => exact absurd AllText.nil h
  | cons v vs ih =>
    by_cases hv : ∃ s, v = .text s
    · obtain ⟨s, rfl⟩ := hv
      obtain ⟨before, w, after, rfl, hw⟩ := ih fun hrest => h (hrest.cons s)
      exact ⟨s :: before, w, after, rfl, hw⟩
    · exact ⟨[], v, vs, rfl, fun s hs => hv ⟨s, hs⟩⟩

theorem joinTexts_fails {vs : List Value} (h : ¬ AllText vs) (gap : String) :
    ∃ (before : List String) (v : Value) (after : List Value), vs = before.map text ++ v :: after ∧
      (∀ s, v ≠ .text s) ∧ joinTexts gap vs = .error (.notText before.length v.typeName) := by
  obtain ⟨before, v, after, rfl, hv⟩ := exists_notText h
  refine ⟨before, v, after, rfl, hv, ?_⟩
  simp [joinTexts, textsFrom_fails before hv, bind, Except.bind]

theorem joinTexts_ok_iff (gap : String) (vs : List Value) : (∃ t, joinTexts gap vs = .ok t) ↔ AllText vs := by
  by_cases h : AllText vs
  · obtain ⟨items, rfl⟩ := (allText_iff vs).1 h
    exact iff_of_true ⟨_, joinTexts_texts gap items⟩ h
  · obtain ⟨_, _, _, -, -, hfails⟩ := joinTexts_fails h gap
    refine iff_of_false ?_ h
    rintro ⟨t, ht⟩
    rw [ht] at hfails
    cases hfails

end Value

end ClassNaming
