/-
The decimal numerals that numbers are written as.

A numeral is made of digits before the point, digits after it and an exponent; its value is a rational.

- `natOfDigits_digitText`: the digits of a natural give the natural.
- `exists_numeral`: what is laid out from digits and an exponent is a numeral of just that value.
-/
import Mathlib.Algebra.Order.Field.Rat
import Mathlib.Data.List.Induction
import Mathlib.Tactic.IntervalCases
import Mathlib.Tactic.NormNum
import ClassNaming.Decimal.Layout
import ClassNaming.Decimal.Reading

namespace ClassNaming

/-! ## Digits -/

/-- a run of decimal digits -/
def AllDigits (cs : List Char) : Prop := ∀ c ∈ cs, isAsciiDigit c = true

theorem AllDigits.append {cs ds : List Char} (hcs : AllDigits cs) (hds : AllDigits ds) : AllDigits (cs ++ ds) :=
  fun c hc => (List.mem_append.1 hc).elim (hcs c) (hds c)

theorem allDigits_zeros (n : ℕ) : AllDigits (List.replicate n '0') :=
  fun c hc => by rw [List.eq_of_mem_replicate hc]; rfl

theorem allDigits_digitText (n : ℕ) : AllDigits (digitText n) := by
  intro c hc
  have hdigit := Nat.isDigit_of_mem_toDigits (by decide) (by decide) hc
  simpa [isAsciiDigit, Char.isDigit, Char.le_def] using hdigit

theorem digitText_ne_nil (n : ℕ) : digitText n ≠ [] :=
  Nat.toDigits_ne_nil

theorem natOfDigits_append (cs ds : List Char) :
    natOfDigits (cs ++ ds) = natOfDigits cs * 10 ^ ds.length + natOfDigits ds := by
  have happend : natOfDigits (cs ++ ds) = Nat.ofDigitChars 10 ds (natOfDigits cs) := Nat.ofDigitChars_append 0
  rw [happend, Nat.ofDigitChars_eq_ofDigitChars_zero, mul_comm]
  rfl

theorem natOfDigits_zeros (n : ℕ) : natOfDigits (List.replicate n '0') = 0 := by
  have hzeros : natOfDigits (List.replicate n '0') = 10 ^ n * 0 := Nat.ofDigitChars_replicate_zero
  rw [hzeros, mul_zero]

/-- the digits of a natural give the natural -/
theorem natOfDigits_digitText (n : ℕ) : natOfDigits (digitText n) = n :=
  Nat.ofDigitChars_ten_toDigits

theorem natOfDigits_lt {cs : List Char} (h : AllDigits cs) : natOfDigits cs < 10 ^ cs.length := by
  induction cs using List.reverseRecOn with
  | nil => decide
  | append_singleton cs c ih =>
    have hinit := ih fun d hd => h d (List.mem_append_left _ hd)
    have hlast : natOfDigits [c] < 10 := by
      have hdigit := h c (List.mem_append_right _ List.mem_cons_self)
      simp only [isAsciiDigit, Bool.and_eq_true, decide_eq_true_eq, Char.le_def, UInt32.le_iff_toNat_le] at hdigit
      have hnine : c.toNat ≤ 57 := hdigit.2
      simp only [natOfDigits, List.foldl_cons, List.foldl_nil]
      have hzero : '0'.toNat = 48 := rfl
      omega
    rw [natOfDigits_append, List.length_append, List.length_singleton, pow_succ]
    omega

/-- a natural has no more digits than any numeral for it -/
theorem length_digitText_natOfDigits {cs : List Char} (h : AllDigits cs) (hne : cs ≠ []) :
    (digitText (natOfDigits cs)).length ≤ cs.length :=
  (Nat.length_toDigits_le_iff (by decide) (List.length_pos_iff.2 hne)).2 (natOfDigits_lt h)

/-- only zero is written with a zero in front -/
theorem head_digitText {n : ℕ} (h : 0 < n) : ∃ c cs, digitText n = c :: cs ∧ c ≠ '0' := by
  induction n using Nat.strong_induction_on with
  | _ n ih =>
    by_cases hn : n < 10
    · refine ⟨n.digitChar, [], Nat.toDigits_of_lt_base hn, ?_⟩
      interval_cases n <;> decide
    · obtain ⟨c, cs, hdigits, hc⟩ := ih (n / 10) (by omega) (by omega)
      refine ⟨c, cs ++ [(n % 10).digitChar], ?_, hc⟩
      rw [digitText, Nat.toDigits_of_base_le (by decide) (by omega)]
      exact congrArg (· ++ _) hdigits

/-! ## Numerals -/

/-- digits before the point, digits after it, and the sign and the digits of an exponent -/
structure Numeral where
  whole : List Char
  part : List Char := []
  power : Option (Bool × List Char) := none

namespace Numeral

/-- the point and the digits after it, if there are any -/
def pointText (n : Numeral) : List Char := if n.part = [] then [] else '.' :: n.part

/-- the exponent with its mark, if there is one -/
def powerText (n : Numeral) : List Char :=
  match n.power with
  | none => []
  | some (negative, digits) => 'e' :: (if negative then '-' else '+') :: digits

def chars (n : Numeral) : List Char := n.whole ++ n.pointText ++ n.powerText

/-- the exponent as an integer -/
def exponent (n : Numeral) : ℤ :=
  match n.power with
  | none => 0
  | some (negative, digits) => if negative then -natOfDigits digits else natOfDigits digits

/-- the value as digits and an exponent of ten -/
def value (n : Numeral) : ℚ := natOfDigits (n.whole ++ n.part) * 10 ^ (n.exponent - n.part.length)

/-- digits that a number starts with: a zero alone, or digits without one in front -/
def IsWhole (ds : List Char) : Prop := ds = ['0'] ∨ (AllDigits ds ∧ ∃ c cs, ds = c :: cs ∧ c ≠ '0')

/-- a numeral of a number that is no integer by its form -/
structure WellFormed (n : Numeral) : Prop where
  whole : IsWhole n.whole
  part : AllDigits n.part
  power : ∀ p ∈ n.power, AllDigits p.2 ∧ p.2 ≠ []
  fractional : n.part ≠ [] ∨ n.power ≠ none

theorem isWhole_digitText (n : ℕ) : IsWhole (digitText n) := by
  rcases Nat.eq_zero_or_pos n with rfl | h
  · exact Or.inl rfl
  · exact Or.inr ⟨allDigits_digitText n, head_digitText h⟩

end Numeral

namespace Real64

open Numeral

/-- the digits of an exponent, two of them at least -/
def wideDigits (e : ℤ) : List Char :=
  if (digitText e.natAbs).length < 2 then '0' :: digitText e.natAbs else digitText e.natAbs

theorem exponentText_eq (e : ℤ) : exponentText e = (if e < 0 then '-' else '+') :: wideDigits e := rfl

theorem allDigits_wideDigits (e : ℤ) : AllDigits (wideDigits e) := by
  unfold wideDigits
  split_ifs
  · exact AllDigits.append (allDigits_zeros 1) (allDigits_digitText _)
  · exact allDigits_digitText _

theorem wideDigits_ne_nil (e : ℤ) : wideDigits e ≠ [] := by
  unfold wideDigits
  split_ifs
  · exact List.cons_ne_nil _ _
  · exact digitText_ne_nil _

theorem natOfDigits_wideDigits (e : ℤ) : natOfDigits (wideDigits e) = e.natAbs := by
  unfold wideDigits
  split_ifs
  · have hzero := natOfDigits_append (List.replicate 1 '0') (digitText e.natAbs)
    rw [natOfDigits_zeros, natOfDigits_digitText, zero_mul, zero_add] at hzero
    exact hzero
  · exact natOfDigits_digitText _

section

variable {ds : List Char} {top : ℤ}

theorem layDigits_inside (ds : List Char) (hlow : -4 ≤ top) (hhigh : top ≤ 15) : layDigits .data ds top =
    if top < 0 then '0' :: '.' :: List.replicate (-top - 1).toNat '0' ++ ds
    else if (ds.drop (top.toNat + 1)).isEmpty then
      ds.take (top.toNat + 1) ++ List.replicate (top.toNat + 1 - ds.length) '0' ++ ['.', '0']
    else ds.take (top.toNat + 1) ++ List.replicate (top.toNat + 1 - ds.length) '0' ++ '.' :: ds.drop (top.toNat + 1) := by
  have hlay : (decide (Layout.data.least ≤ top) && decide (top ≤ Layout.data.greatest)) = true := by
    rw [Bool.and_eq_true, decide_eq_true_eq, decide_eq_true_eq]
    exact ⟨hlow, hhigh⟩
  rw [layDigits.eq_def, if_pos hlay]
  rfl

theorem layDigits_outside (c : Char) (cs : List Char) (hout : top < -4 ∨ 15 < top) : layDigits .data (c :: cs) top =
    (if cs = [] then [c] else c :: '.' :: cs) ++ 'e' :: exponentText top := by
  have hlay : ¬ (decide (Layout.data.least ≤ top) && decide (top ≤ Layout.data.greatest)) = true := by
    rw [Bool.and_eq_true, decide_eq_true_eq, decide_eq_true_eq]
    rintro ⟨hlow, hhigh⟩
    have hlow' : -4 ≤ top := hlow
    have hhigh' : top ≤ 15 := hhigh
    omega
  rw [layDigits.eq_def, if_neg hlay]
  cases cs <;> rfl

/-- a number below one and not too small, with zeros after the point -/
theorem exists_numeral_below (hds : AllDigits ds) (hne : ds ≠ []) (hlow : -4 ≤ top) (hneg : top < 0) :
    ∃ n : Numeral, layDigits .data ds top = n.chars ∧ n.WellFormed ∧
      n.value = natOfDigits ds * 10 ^ (top + 1 - ds.length) := by
  refine ⟨⟨['0'], List.replicate (-top - 1).toNat '0' ++ ds, none⟩, ?_, ?_, ?_⟩
  · simp [layDigits_inside ds hlow (show top ≤ 15 by omega), hneg, chars, pointText, powerText, hne]
  · exact ⟨Or.inl rfl, (allDigits_zeros _).append hds, by simp, Or.inl (by simp [hne])⟩
  · have hdigits : natOfDigits (['0'] ++ (List.replicate (-top - 1).toNat '0' ++ ds)) = natOfDigits ds := by
      rw [natOfDigits_append, natOfDigits_append, natOfDigits_zeros]
      simp [natOfDigits]
    simp only [value, hdigits, exponent, List.length_append, List.length_replicate]
    congr 2
    push_cast
    omega

/-- a number from one on, and not too great -/
theorem exists_numeral_above (hds : AllDigits ds) (hwhole : IsWhole ds) (hzero : ds = ['0'] → top = 0) (hpos : 0 ≤ top)
    (hhigh : top ≤ 15) : ∃ n : Numeral, layDigits .data ds top = n.chars ∧ n.WellFormed ∧
      n.value = natOfDigits ds * 10 ^ (top + 1 - ds.length) := by
  have hlay := layDigits_inside ds (show -4 ≤ top by omega) hhigh
  rw [if_neg (by omega)] at hlay
  by_cases hback : ds.drop (top.toNat + 1) = []
  · -- zeros fill up the whole part
    have hlen : ds.length ≤ top.toNat + 1 := List.drop_eq_nil_iff.1 hback
    refine ⟨⟨ds ++ List.replicate (top.toNat + 1 - ds.length) '0', ['0'], none⟩, ?_, ?_, ?_⟩
    · simp [hlay, hback, List.take_of_length_le hlen, chars, pointText, powerText]
    · refine ⟨?_, allDigits_zeros 1, by simp, Or.inl (by simp)⟩
      rcases hwhole with rfl | ⟨-, c, cs, rfl, hc⟩
      · left
        rw [hzero rfl]
        rfl
      · exact Or.inr ⟨hds.append (allDigits_zeros _), c, _, rfl, hc⟩
    · have hdigits : natOfDigits (ds ++ List.replicate (top.toNat + 1 - ds.length) '0' ++ ['0']) =
          natOfDigits ds * 10 ^ (top.toNat + 1 - ds.length + 1) := by
        rw [List.append_assoc, natOfDigits_append, ← List.replicate_succ', natOfDigits_zeros, List.length_replicate,
          add_zero]
      simp only [value, hdigits, exponent, List.length_singleton]
      push_cast
      rw [mul_assoc, ← zpow_natCast, ← zpow_add₀ (by norm_num)]
      congr 2
      push_cast
      omega
  · refine ⟨⟨ds.take (top.toNat + 1), ds.drop (top.toNat + 1), none⟩, ?_, ?_, ?_⟩
    · have hlen : top.toNat + 1 - ds.length = 0 := by
        have := mt List.drop_eq_nil_iff.2 hback
        omega
      simp [hlay, hback, hlen, chars, pointText, powerText]
    · refine ⟨?_, fun c hc => hds c (List.mem_of_mem_drop hc), by simp, Or.inl hback⟩
      rcases hwhole with rfl | ⟨-, c, cs, rfl, hc⟩
      · simp at hback
      · exact Or.inr ⟨fun c hc => hds c (List.mem_of_mem_take hc), c, cs.take top.toNat, rfl, hc⟩
    · have hlen : top.toNat + 1 < ds.length := by
        have := mt List.drop_eq_nil_iff.2 hback
        omega
      simp only [value, List.take_append_drop, exponent, List.length_drop]
      congr 2
      omega

/-- a number with an exponent -/
theorem exists_numeral_power (hds : AllDigits ds) (hhead : ∃ c cs, ds = c :: cs ∧ c ≠ '0') (hout : top < -4 ∨ 15 < top) :
    ∃ n : Numeral, layDigits .data ds top = n.chars ∧ n.WellFormed ∧
      n.value = natOfDigits ds * 10 ^ (top + 1 - ds.length) := by
  obtain ⟨c, cs, rfl, hc⟩ := hhead
  refine ⟨⟨[c], cs, some (top < 0, wideDigits top)⟩, ?_, ?_, ?_⟩
  · rw [layDigits_outside c cs hout]
    split_ifs with hcs <;> simp [chars, pointText, powerText, exponentText_eq, hcs]
  · refine ⟨Or.inr ⟨fun d hd => hds d ?_, c, [], rfl, hc⟩, fun d hd => hds d (List.mem_cons_of_mem _ hd), ?_,
      Or.inr (by simp)⟩
    · exact List.mem_singleton.1 hd ▸ List.mem_cons_self
    · simpa using ⟨allDigits_wideDigits top, wideDigits_ne_nil top⟩
  · have hexponent : (if top < 0 then -(natOfDigits (wideDigits top) : ℤ) else natOfDigits (wideDigits top)) = top := by
      rw [natOfDigits_wideDigits]
      split_ifs <;> omega
    simp only [value, exponent, decide_eq_true_eq, hexponent, List.singleton_append, List.length_cons]
    congr 2
    push_cast
    omega

end

/-- **Laying out:** digits and an exponent are laid out as a numeral of their value. -/
theorem exists_numeral (d : ℕ) (k : ℤ) (hzero : d = 0 → k = 0) (negative : Bool) :
    ∃ n : Numeral, (lay .data negative d k).toList = (if negative then ['-'] else []) ++ n.chars ∧ n.WellFormed ∧
      n.value = d * 10 ^ k := by
  obtain ⟨top, htop, hsame⟩ : ∃ top : ℤ, (if d == 0 then 0 else k + (digitText d).length - 1) = top ∧
      top + 1 - (digitText d).length = k := by
    refine ⟨_, rfl, ?_⟩
    by_cases hd : d = 0
    · subst hd
      rw [hzero rfl]
      rfl
    · simp [hd]
  have hds := allDigits_digitText d
  have hnumeral : ∃ n : Numeral, layDigits .data (digitText d) top = n.chars ∧ n.WellFormed ∧
      n.value = natOfDigits (digitText d) * 10 ^ (top + 1 - (digitText d).length) := by
    by_cases hout : top < -4 ∨ 15 < top
    · refine exists_numeral_power hds (head_digitText (Nat.pos_of_ne_zero ?_)) hout
      rintro rfl
      have htop0 : top = 0 := htop.symm
      omega
    · by_cases hneg : top < 0
      · exact exists_numeral_below hds (digitText_ne_nil d) (by omega) hneg
      · refine exists_numeral_above hds (isWhole_digitText d) (fun h0 => ?_) (by omega) (by omega)
        have hd : d = 0 := by rw [← natOfDigits_digitText d, h0]; rfl
        subst hd
        exact htop.symm
  obtain ⟨n, hn, hwell, hvalue⟩ := hnumeral
  refine ⟨n, ?_, hwell, ?_⟩
  · simp only [lay, htop, hn, String.toList_ofList]
  · rw [hvalue, natOfDigits_digitText, hsame]

end Real64

end ClassNaming
