/-
Texts cut to a length.

A text that fits stays as it is. One that does not is cut, and its last characters give way to the mark of omission if
the length has room for it. A negative length is no room at all, but it cuts that many characters off the end instead:
so a text that is longer than that leaves something over.

- `length_truncate`: how long a text is after the cut.
- `truncate_shape`: what is left is the front of the text, perhaps with the mark behind it.
- `cut_within_iff`: when the cut keeps to its length.
- `lines_within_iff`: warnings and bullets are cut to four less than the width, which has to be four at least.
-/
import Mathlib.Algebra.Order.Group.Int
import Mathlib.Tactic.SplitIfs
import ClassNaming.Report.Render

namespace ClassNaming

/-! ## The front of a text -/

theorem takeSigned_front (n : ℤ) (cs : List Char) : takeSigned n cs <+: cs := by
  unfold takeSigned
  split_ifs
  · exact List.take_prefix _ cs
  · exact List.take_prefix _ cs

theorem length_takeSigned_of_nonneg {n : ℤ} {cs : List Char} (h : 0 ≤ n) (hn : n ≤ cs.length) :
    ((takeSigned n cs).length : ℤ) = n := by
  rw [takeSigned, if_neg (not_lt.2 h), List.length_take]
  omega

theorem length_takeSigned_of_neg {n : ℤ} (h : n < 0) (cs : List Char) :
    ((takeSigned n cs).length : ℤ) = max 0 (cs.length + n) := by
  rw [takeSigned, if_pos h, List.length_take]
  omega

/-! ## The three cases of a cut -/

variable {mark cs : List Char} {n : ℤ}

theorem truncate_of_fits (h : (cs.length : ℤ) ≤ n) : truncate mark n cs = cs := by
  rw [truncate, if_pos h]

/-- a length that has no room for the mark -/
theorem truncate_of_narrow (h : n < cs.length) (hmark : n ≤ mark.length) : truncate mark n cs = takeSigned n cs := by
  rw [truncate, if_neg (not_le.2 h), if_pos hmark]

theorem truncate_of_wide (h : n < cs.length) (hmark : (mark.length : ℤ) < n) :
    truncate mark n cs = cs.take (n - mark.length).toNat ++ mark := by
  rw [truncate, if_neg (not_le.2 h), if_neg (not_le.2 hmark)]

/-- **The length after the cut:** that of a text that fits, else the one that was asked for; a negative one takes as
many characters off the end. -/
theorem length_truncate (mark : List Char) (n : ℤ) (cs : List Char) : ((truncate mark n cs).length : ℤ) =
    if (cs.length : ℤ) ≤ n then (cs.length : ℤ) else if 0 ≤ n then n else max 0 (cs.length + n) := by
  by_cases hfits : (cs.length : ℤ) ≤ n
  · rw [truncate_of_fits hfits, if_pos hfits]
  · have hlong := not_le.1 hfits
    rw [if_neg hfits]
    by_cases hmark : n ≤ mark.length
    · rw [truncate_of_narrow hlong hmark]
      split_ifs with hn
      · exact length_takeSigned_of_nonneg hn hlong.le
      · exact length_takeSigned_of_neg (not_le.1 hn) cs
    · have hroom := not_le.1 hmark
      have hn : 0 ≤ n := (Int.natCast_nonneg _).trans hroom.le
      rw [truncate_of_wide hlong hroom, if_pos hn, List.length_append, List.length_take]
      omega

/-- what is left is the front of the text, perhaps with the mark behind it -/
theorem truncate_shape (mark : List Char) (n : ℤ) (cs : List Char) :
    truncate mark n cs <+: cs ∨ ∃ front, front <+: cs ∧ truncate mark n cs = front ++ mark := by
  by_cases hfits : (cs.length : ℤ) ≤ n
  · rw [truncate_of_fits hfits]
    exact Or.inl List.prefix_rfl
  · have hlong := not_le.1 hfits
    by_cases hmark : n ≤ mark.length
    · rw [truncate_of_narrow hlong hmark]
      exact Or.inl (takeSigned_front n cs)
    · rw [truncate_of_wide hlong (not_le.1 hmark)]
      exact Or.inr ⟨_, List.take_prefix _ cs, rfl⟩

/-- the cut keeps to its length, a negative one standing for none, unless it is negative and the text is longer than it
takes off -/
theorem truncate_within_iff (mark : List Char) (n : ℤ) (cs : List Char) :
    ((truncate mark n cs).length : ℤ) ≤ max n 0 ↔ 0 ≤ n ∨ (cs.length : ℤ) ≤ -n := by
  rw [length_truncate]
  split_ifs <;> omega

/-- a text that fits stays as it is, also the empty one under a negative length -/
theorem truncate_eq_self (h : (cs.length : ℤ) ≤ max n 0) : truncate mark n cs = cs := by
  by_cases hfits : (cs.length : ℤ) ≤ n
  · exact truncate_of_fits hfits
  · obtain rfl : cs = [] := List.length_eq_zero_iff.1 (by omega)
    have hlong := not_le.1 hfits
    rw [truncate_of_narrow hlong (hlong.le.trans (Int.natCast_nonneg _))]
    exact List.prefix_nil.1 (takeSigned_front n [])

/-! ## Texts in a frame -/

namespace Frame

theorem cut_toList (f : Frame) (text : String) (n : ℤ) :
    (f.cut text (some n)).toList = truncate f.symbols.ellipsis.toList n text.toList := by
  simp [cut]

/-- **A cut keeps to its length** exactly if that is not negative, or takes off the whole text. A text that fits stays as
it is, and what is left of any other is its front, perhaps with the mark of omission behind it. -/
theorem cut_within_iff (f : Frame) (text : String) (n : ℤ) :
    (((f.cut text (some n)).length : ℤ) ≤ max n 0 ↔ 0 ≤ n ∨ (text.length : ℤ) ≤ -n) ∧
    ((text.length : ℤ) ≤ max n 0 → f.cut text (some n) = text) ∧
    ((f.cut text (some n)).toList <+: text.toList ∨
      ∃ front, front <+: text.toList ∧ (f.cut text (some n)).toList = front ++ f.symbols.ellipsis.toList) := by
  simp only [← String.length_toList]
  refine ⟨?_, fun hfits => ?_, ?_⟩
  · rw [cut_toList]
    exact truncate_within_iff _ n _
  · rw [← String.toList_inj, cut_toList]
    exact truncate_eq_self hfits
  · rw [cut_toList]
    exact truncate_shape _ n _

/-- a frame of three columns -/
def narrow : Frame := ⟨.ascii, 3⟩

/-- **Three columns are too few:** a bullet is cut to one less than nothing, and four of its five characters stay. -/
theorem narrow_exceeds : (narrow.cut "hello" (some (narrow.width - 4))).length = 4 ∧
    ¬ ((narrow.cut "hello" (some (narrow.width - 4))).length : ℤ) ≤ max (narrow.width - 4) 0 := by
  decide +kernel

/-- warnings and bullets are cut to four less than the width of their frame; all of them keep to that exactly if the width
is four at least -/
theorem lines_within_iff (f : Frame) :
    (∀ text, ((f.cut text (some (f.width - 4))).length : ℤ) ≤ max (f.width - 4) 0) ↔ 4 ≤ f.width := by
  simp only [← String.length_toList, cut_toList, truncate_within_iff]
  constructor
  · intro h
    -- a text that is longer than what is taken off
    have hlong := h (String.ofList (List.replicate (5 - f.width).toNat 'x'))
    rw [String.toList_ofList, List.length_replicate] at hlong
    omega
  · intro h text
    exact Or.inl (by omega)

end Frame

end ClassNaming
