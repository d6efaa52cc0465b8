/-
What one line does to the open rules, and how a text falls into lines.

- `step_opening`, `step_plain`, `step_closing`: the three things that a line can do.
- `pieces_eq_splitOnP`: cutting a text is what the library has for lists.
- `linesOf_append`, `linesOf_joined`: the lines of texts put one below the other are the lines of each, in order.
-/
import Mathlib.Tactic
import ClassNaming.Extract.Nesting

namespace ClassNaming.Extract

/-! ## Lines of a text -/

/-- texts one below the other -/
def joined (texts : List (List Char)) : List Char := List.intercalate ['\n'] texts

/-- the lines of a text -/
def linesOf (cs : List Char) : List (List Char) := pieces (· == '\n') cs

/-- cutting at characters of one kind is what the library has for lists -/
theorem pieces_eq_splitOnP (isGap : Char → Bool) (cs : List Char) : pieces isGap cs = cs.splitOnP isGap := by
  induction cs with
  | nil => rfl
  | cons c cs ih =>
    rw [pieces, ih, List.splitOnP_cons_eq_if_modifyHead]
    split_ifs
    · rfl
    · cases hparts : cs.splitOnP isGap with
      | nil => exact absurd hparts (List.splitOnP_ne_nil _ _)
      | cons part parts => rfl

theorem linesOf_append (xs ys : List Char) : linesOf (xs ++ '\n' :: ys) = linesOf xs ++ linesOf ys := by
  simp only [linesOf, pieces_eq_splitOnP]
  exact List.splitOnP_append_cons xs ys (beq_self_eq_true '\n')

theorem joined_cons_cons (text next : List Char) (texts : List (List Char)) :
    joined (text :: next :: texts) = text ++ '\n' :: joined (next :: texts) := by
  simp [joined, List.intercalate_cons_cons]

theorem mem_joined {texts : List (List Char)} {text : List Char} (h : text ∈ texts) {c : Char} (hc : c ∈ text) :
    c ∈ joined texts := by
  induction texts with
  | nil => exact absurd h List.not_mem_nil
  | cons first texts ih =>
    cases texts with
    | nil =>
      obtain rfl := List.mem_singleton.1 h
      simpa [joined] using hc
    | cons next texts =>
      rw [joined_cons_cons]
      rcases List.mem_cons.1 h with rfl | h
      · exact List.mem_append_left _ hc
      · exact List.mem_append_right _ (List.mem_cons_of_mem _ (ih h))

theorem linesOf_joined (text : List Char) (texts : List (List Char)) :
    linesOf (joined (text :: texts)) = (text :: texts).flatMap linesOf := by
  induction texts generalizing text with
  | nil => simp [joined]
  | cons next texts ih =>
    rw [joined_cons_cons, linesOf_append, ih next, ← List.flatMap_cons]

/-- no text is lost in cutting it into lines -/
theorem joined_linesOf (cs : List Char) : joined (linesOf cs) = cs := by
  rw [joined, linesOf, pieces_eq_splitOnP]
  exact List.intercalate_splitOn '\n'

theorem linesOf_single {line : List Char} (h : '\n' ∉ line) : linesOf line = [line] := by
  rw [linesOf, pieces_eq_splitOnP]
  refine List.splitOnP_eq_singleton fun c hc => beq_eq_false_iff_ne.2 ?_
  rintro rfl
  exact h hc

theorem flatMap_linesOf {lines : List (List Char)} (h : ∀ line ∈ lines, '\n' ∉ line) :
    lines.flatMap linesOf = lines := by
  induction lines with
  | nil => rfl
  | cons line lines ih =>
    rw [List.flatMap_cons, linesOf_single (h line (by simp)), ih fun l hl => h l (List.mem_cons_of_mem line hl)]
    rfl

theorem nested_eq (cs : List Char) : nested (String.ofList cs) = (expandLines (linesOf cs)).map String.ofList := by
  rw [nested, String.toList_ofList]; rfl

/-! ## Trimming -/

theorem mem_of_mem_trim {c : Char} {line : List Char} (h : c ∈ Text.trim line) : c ∈ line := by
  unfold Text.trim Text.dropEndWhile at h
  have h1 := (List.dropWhile_sublist _).subset (List.mem_reverse.1 h)
  exact (List.dropWhile_sublist _).subset (List.mem_reverse.1 h1)

/-- what is dropped at both ends is blank -/
theorem exists_trimmed (line : List Char) : ∃ lead trail, (∀ c ∈ lead, Text.isBlank c = true) ∧
    (∀ c ∈ trail, Text.isBlank c = true) ∧ line = lead ++ (Text.trim line ++ trail) := by
  have hblank : ∀ cs : List Char, ∀ c ∈ cs.takeWhile Text.isBlank, Text.isBlank c = true :=
    fun _ => List.all_eq_true.1 List.all_takeWhile
  refine ⟨line.takeWhile Text.isBlank, ((line.dropWhile Text.isBlank).reverse.takeWhile Text.isBlank).reverse,
    hblank line, fun c hc => hblank _ c (List.mem_reverse.1 hc), ?_⟩
  rw [Text.trim, Text.dropEndWhile, ← List.reverse_append, List.takeWhile_append_dropWhile, List.reverse_reverse,
    List.takeWhile_append_dropWhile]

/-- blanks at both ends are dropped, and nothing else if what is between starts and ends with no blank -/
theorem trim_between {a x b : List Char} (ha : ∀ c ∈ a, Text.isBlank c = true) (hb : ∀ c ∈ b, Text.isBlank c = true)
    (hfirst : ∀ c ∈ x.head?, Text.isBlank c = false) (hlast : ∀ c ∈ x.getLast?, Text.isBlank c = false)
    (hx : x ≠ []) : Text.trim (a ++ x ++ b) = x := by
  have hstart : (a ++ x ++ b).dropWhile Text.isBlank = x ++ b := by
    rw [List.append_assoc, List.dropWhile_append_of_pos ha]
    obtain ⟨c, rest, rfl⟩ := List.exists_cons_of_ne_nil hx
    have := hfirst c rfl
    simp [this]
  unfold Text.trim Text.dropEndWhile
  rw [hstart, List.reverse_append, List.dropWhile_append_of_pos fun c hc => hb c (List.mem_reverse.1 hc)]
  cases hr : x.reverse with
  | nil => exact absurd (List.reverse_eq_nil_iff.1 hr) hx
  | cons c rest =>
    have hc : Text.isBlank c = false := by
      refine hlast c ?_
      rw [← List.head?_reverse, hr]; rfl
    have hdrop : (c :: rest).dropWhile Text.isBlank = c :: rest := by simp [hc]
    rw [hdrop, ← hr, List.reverse_reverse]

/-! ## The three things a line can do -/

/-- a line of selectors opens a rule -/
theorem step_opening (n : Nest) {line : List Char} {parts : List (List Char)}
    (hopen : opening? (Text.trim line) = some parts) (hclose : '\x7d' ∉ Text.trim line) :
    n.step line = n.push parts := by
  simp [Nest.step, hopen, hclose]

/-- a line that is neither selectors nor has a closing brace changes nothing -/
theorem step_plain (n : Nest) {line : List Char} (hopen : opening? (Text.trim line) = none)
    (hclose : '\x7d' ∉ Text.trim line) : n.step line = n := by
  simp [Nest.step, hopen, hclose]

/-- a line that is a closing brace closes the innermost rule -/
theorem step_closing (n : Nest) {line : List Char} (h : Text.trim line = ['\x7d']) :
    n.step line = ⟨n.stack.tail, n.found⟩ := by
  have hopen : opening? ['\x7d'] = none := by decide
  simp [Nest.step, h, hopen]

theorem foldl_plain (n : Nest) {lines : List (List Char)}
    (h : ∀ line ∈ lines, opening? (Text.trim line) = none ∧ '\x7d' ∉ line) : lines.foldl Nest.step n = n := by
  induction lines with
  | nil => rfl
  | cons line lines ih =>
    obtain ⟨hopen, hclose⟩ := h line (by simp)
    rw [List.foldl_cons, step_plain n hopen fun hc => hclose (mem_of_mem_trim hc)]
    exact ih fun l hl => h l (List.mem_cons_of_mem line hl)

end ClassNaming.Extract
