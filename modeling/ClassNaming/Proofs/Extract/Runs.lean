/-
Runs of characters, and the places where they begin.

A run begins at a place if the character there and the one before it make an edge. What is taken there is the longest
stretch of characters of one kind. That says where each run stands and how long it is, whatever way it is found; the
searches for the words and for the names of a text are measured by it.

- `LongestRun.eq`: there is one longest run at a place.
- `runsAfter_longest`, `runsAt_iff`: the runs found character by character are the longest ones at the edges, in the
  order of the text, and there is no other list of them.
- `runsAfter_append`: where no run goes on across a seam, the runs of both sides come one after the other.
-/
import Mathlib.Tactic

namespace ClassNaming.Extract

/-! ## Runs -/

/-- the longest stretch of characters with `p` that begins at a place of the text -/
structure LongestRun (p : Char → Bool) (cs : List Char) (i : Nat) (run : List Char) : Prop where
  here : run <+: cs.drop i
  inside : ∀ c ∈ run, p c = true
  longest : ∀ other, other <+: cs.drop i → (∀ c ∈ other, p c = true) → other.length ≤ run.length

/-- the character before a place, `first` being the one before the text -/
def before? (first : Option Char) (cs : List Char) : Nat → Option Char
  | 0 => first
  | i + 1 => cs[i]?

/-- the places where the character before and the character there make an edge, in increasing order -/
def edges (edge : Option Char → Char → Bool) (first : Option Char) (cs : List Char) : List Nat :=
  (List.range cs.length).filter fun i => cs[i]?.any (edge (before? first cs i))

/-- one longest run for each edge of a text, in the order of the text -/
def RunsAt (p : Char → Bool) (edge : Option Char → Char → Bool) (cs : List Char) (runs : List (List Char)) : Prop :=
  List.Forall₂ (LongestRun p cs) (edges edge none cs) runs

section

variable {p : Char → Bool} {edge : Option Char → Char → Bool}

/-- a run ends where its characters do -/
theorem takeWhile_append_stop {xs rest : List Char} (hxs : ∀ c ∈ xs, p c = true)
    (hrest : ∀ c ∈ rest.head?, p c = false) : (xs ++ rest).takeWhile p = xs := by
  rw [List.takeWhile_append_of_pos hxs]
  cases rest with
  | nil => exact List.append_nil xs
  | cons c rest => rw [List.takeWhile_cons, hrest c rfl, if_neg Bool.false_ne_true, List.append_nil]

theorem dropWhile_append_stop {xs rest : List Char} (hxs : ∀ c ∈ xs, p c = true)
    (hrest : ∀ c ∈ rest.head?, p c = false) : (xs ++ rest).dropWhile p = rest := by
  rw [List.dropWhile_append_of_pos hxs]
  cases rest with
  | nil => rfl
  | cons c rest => rw [List.dropWhile_cons, hrest c rfl, if_neg Bool.false_ne_true]

/-- what is left behind a run does not go on with it -/
theorem head_dropWhile {cs : List Char} : ∀ c ∈ (cs.dropWhile p).head?, p c = false := by
  intro c hc
  have hnot := List.head?_dropWhile_not p cs
  rwa [Option.mem_def.1 hc] at hnot

theorem longestRun_takeWhile (p : Char → Bool) (cs : List Char) (i : Nat) :
    LongestRun p cs i ((cs.drop i).takeWhile p) := by
  refine ⟨List.takeWhile_prefix p, List.all_eq_true.1 List.all_takeWhile, ?_⟩
  rintro other ⟨rest, hrest⟩ hp
  rw [← hrest, List.takeWhile_append_of_pos hp, List.length_append]
  exact Nat.le_add_right _ _

/-- there is no other longest run at a place -/
theorem LongestRun.eq {cs run : List Char} {i : Nat} (h : LongestRun p cs i run) :
    run = (cs.drop i).takeWhile p := by
  have htaken := longestRun_takeWhile p cs i
  have hlength : run.length = ((cs.drop i).takeWhile p).length :=
    le_antisymm (htaken.longest run h.here h.inside) (h.longest _ htaken.here htaken.inside)
  rcases List.prefix_or_prefix_of_prefix h.here htaken.here with hshort | hshort
  · exact hshort.eq_of_length hlength
  · exact (hshort.eq_of_length hlength.symm).symm

theorem edges_cons (first : Option Char) (c : Char) (cs : List Char) :
    edges edge first (c :: cs) = (if edge first c then [0] else []) ++ (edges edge (some c) cs).map (· + 1) := by
  have hstep : (fun i => (c :: cs)[i]?.any (edge (before? first (c :: cs) i))) ∘ Nat.succ =
      fun i => cs[i]?.any (edge (before? (some c) cs i)) := by
    funext i
    cases i <;> rfl
  rw [edges, List.length_cons, List.range_succ_eq_map, List.filter_cons, List.filter_map, hstep]
  by_cases h : edge first c <;> simp [h, before?, edges]

/-! ## Character by character -/

/-- the runs at the edges of what is left of a text, with the character before it -/
def runsAfter (p : Char → Bool) (edge : Option Char → Char → Bool) : Option Char → List Char → List (List Char)
  | _, [] => []
  | before, c :: cs =>
    (if edge before c then [(c :: cs).takeWhile p] else []) ++ runsAfter p edge (some c) cs

theorem runsAfter_skip {before : Option Char} {c : Char} (h : edge before c = false) (cs : List Char) :
    runsAfter p edge before (c :: cs) = runsAfter p edge (some c) cs := by
  rw [runsAfter, h]
  rfl

theorem runsAfter_take {before : Option Char} {c : Char} (h : edge before c = true) (cs : List Char) :
    runsAfter p edge before (c :: cs) = (c :: cs).takeWhile p :: runsAfter p edge (some c) cs := by
  rw [runsAfter, h]
  rfl

/-- **One longest run for each edge.** -/
theorem runsAfter_longest (first : Option Char) (cs : List Char) :
    List.Forall₂ (LongestRun p cs) (edges edge first cs) (runsAfter p edge first cs) := by
  induction cs generalizing first with
  | nil => exact List.Forall₂.nil
  | cons c cs ih =>
    have hrest : List.Forall₂ (LongestRun p (c :: cs)) ((edges edge (some c) cs).map (· + 1))
        (runsAfter p edge (some c) cs) :=
      List.forall₂_map_left_iff.2 ((ih (some c)).imp fun _ _ h => ⟨h.here, h.inside, h.longest⟩)
    rw [edges_cons, runsAfter]
    split_ifs
    · exact List.Forall₂.cons (longestRun_takeWhile p (c :: cs) 0) hrest
    · exact hrest

/-- the longest runs at the edges of a text are no other lists than this one -/
theorem runsAt_iff (cs : List Char) (runs : List (List Char)) :
    RunsAt p edge cs runs ↔ runs = runsAfter p edge none cs := by
  refine ⟨fun h => ?_, fun h => h ▸ runsAfter_longest none cs⟩
  have hsame : ∀ {places : List Nat} {xs ys : List (List Char)}, List.Forall₂ (LongestRun p cs) places xs →
      List.Forall₂ (LongestRun p cs) places ys → xs = ys := by
    intro places xs ys hxs hys
    induction hxs generalizing ys with
    | nil => exact (List.forall₂_nil_left_iff.1 hys).symm
    | cons hrun _ ih =>
      obtain ⟨run, more, hother, hmore, rfl⟩ := List.forall₂_cons_left_iff.1 hys
      rw [hrun.eq, hother.eq, ih hmore]
  exact hsame h (runsAfter_longest none cs)

theorem run_of_mem (hedge : ∀ before c, edge before c = true → p c = true) {first : Option Char} {cs run : List Char}
    (h : run ∈ runsAfter p edge first cs) : run ≠ [] ∧ ∀ c ∈ run, p c = true := by
  induction cs generalizing first with
  | nil => exact absurd h List.not_mem_nil
  | cons c cs ih =>
    rw [runsAfter] at h
    rcases List.mem_append.1 h with h | h
    · split_ifs at h with hc
      · obtain rfl := List.mem_singleton.1 h
        refine ⟨?_, List.all_eq_true.1 List.all_takeWhile⟩
        rw [List.takeWhile_cons_of_pos (hedge first c hc)]
        exact List.cons_ne_nil _ _
      · exact absurd h List.not_mem_nil
    · exact ih h

/-- what is before a text matters for an edge at its first character only -/
theorem runsAfter_congr {first second : Option Char} {cs : List Char}
    (h : ∀ c ∈ cs.head?, edge first c = edge second c) :
    runsAfter p edge first cs = runsAfter p edge second cs := by
  cases cs with
  | nil => rfl
  | cons c cs => rw [runsAfter, runsAfter, h c rfl]

/-- a run that ends before the seam is not changed by what follows -/
theorem runsAfter_append {first : Option Char} {xs ys : List Char} (h : ∀ c ∈ ys.head?, p c = false) :
    runsAfter p edge first (xs ++ ys) = runsAfter p edge first xs ++ runsAfter p edge (xs.getLast?.or first) ys := by
  induction xs generalizing first with
  | nil => rfl
  | cons x xs ih =>
    have hstop : ([] ++ ys).takeWhile p = [] := takeWhile_append_stop (by simp) h
    rw [List.nil_append] at hstop
    have htake : (x :: (xs ++ ys)).takeWhile p = (x :: xs).takeWhile p := by
      rw [← List.cons_append, List.takeWhile_append]
      split_ifs with hall
      · rw [hstop, List.append_nil]
        exact ((List.takeWhile_prefix p).eq_of_length hall).symm
      · rfl
    have hlast : (x :: xs).getLast?.or first = xs.getLast?.or (some x) := by
      rw [List.getLast?_cons]
      cases xs.getLast? <;> rfl
    rw [List.cons_append, runsAfter, runsAfter, ih, htake, hlast, List.append_assoc]

end

end ClassNaming.Extract
