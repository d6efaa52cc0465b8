/-
The decimal that a number is written as is read back as the number.

A grid of seventeen digits is fine enough: its point next to a number is within a part of `2 * 10 ^ 16` of it, and a
number of 53 bits is read from all that is so close. Whatever coarser grid the search stops at, it has read the digits
back before.

- `onGrid?_isSome`: seventeen digits always suffice.
- `shortest_readsBack`: the shortest decimal of a number is read as the number.
-/
import ClassNaming.Decimal.Shortest
import ClassNaming.Proofs.Decimal.Rounding

namespace ClassNaming.Real64

/-! ## Sizes in tens -/

theorem ten_zpow_le_two_zpow {a b : ℤ} (hpos : 0 ≤ b → 10 * b ≤ 3 * a) (hneg : b < 0 → a < 0 → 28 * -a ≤ 93 * -b) :
    (10 : ℚ) ^ b ≤ 2 ^ a := by
  rcases le_or_gt 0 b with hb | hb
  · have ha := hpos hb
    obtain ⟨i, rfl⟩ := Int.eq_ofNat_of_zero_le hb
    obtain ⟨j, rfl⟩ := Int.eq_ofNat_of_zero_le (show 0 ≤ a by omega)
    rw [zpow_natCast, zpow_natCast]
    exact_mod_cast ten_pow_le_two_pow (by omega)
  · rcases le_or_gt 0 a with ha | ha
    · exact (zpow_le_one_of_nonpos₀ (by norm_num) hb.le).trans (one_le_zpow₀ one_le_two ha)
    · have h := hneg hb ha
      obtain ⟨i, hi⟩ := Int.eq_ofNat_of_zero_le (show 0 ≤ -b by omega)
      obtain ⟨j, hj⟩ := Int.eq_ofNat_of_zero_le (show 0 ≤ -a by omega)
      have hle : (2 : ℚ) ^ j ≤ 10 ^ i := by exact_mod_cast two_pow_le_ten_pow (by omega)
      rw [show b = -(i : ℤ) by omega, show a = -(j : ℤ) by omega, zpow_neg, zpow_neg, zpow_natCast, zpow_natCast]
      exact inv_anti₀ (by positivity) hle

/-- the first of four exponents that is great enough, or the one after them, is not too great if the first is not -/
theorem find?_exponent {great : ℤ → Bool} {guess : ℤ} (Fine : ℤ → Prop)
    (hnext : ∀ e, great e = false → Fine (e + 1)) (hfirst : Fine (guess - 1)) :
    Fine (([guess - 1, guess, guess + 1, guess + 2].find? great).getD (guess + 3)) := by
  cases h₁ : great (guess - 1) with
  | true => simpa [h₁] using hfirst
  | false =>
    have hfine₁ := hnext _ h₁
    rw [Int.sub_add_cancel] at hfine₁
    cases h₂ : great guess with
    | true => simpa [h₁, h₂] using hfine₁
    | false =>
      cases h₃ : great (guess + 1) with
      | true => simpa [h₁, h₂, h₃] using hnext _ h₂
      | false =>
        cases h₄ : great (guess + 2) with
        | true => simpa [h₁, h₂, h₃, h₄, add_assoc] using hnext _ h₃
        | false => simpa [h₁, h₂, h₃, h₄, add_assoc] using hnext _ h₄

/-- a power of ten is above a quotient, in naturals -/
theorem lt_ten_zpow_iff (num : ℕ) {den : ℕ} (hden : 0 < den) (e : ℤ) :
    (if 0 ≤ e then decide (num < den * tenTo e.toNat) else decide (num * tenTo (-e).toNat < den)) =
      decide ((num / den : ℚ) < 10 ^ e) := by
  have hd : (0 : ℚ) < den := by exact_mod_cast hden
  split_ifs with he
  · have hcast := cast_pow_toNat 10 he
    push_cast at hcast
    rw [decide_eq_decide, div_lt_iff₀ hd, ← hcast, mul_comm, tenTo, Nat.pow_eq]
    exact_mod_cast Iff.rfl
  · have hcast := cast_pow_toNat_neg 10 (not_le.1 he).le
    push_cast at hcast
    have hinv : (10 : ℚ) ^ e = (10 ^ (-e).toNat)⁻¹ := by rw [hcast, inv_inv]
    rw [decide_eq_decide, div_lt_iff₀ hd, hinv, lt_inv_mul_iff₀ (by positivity), mul_comm, tenTo, Nat.pow_eq]
    exact_mod_cast Iff.rfl

/-- the decimal exponent is not too great, for sizes in the range of numbers -/
theorem ten_zpow_decimalExponent {num den : ℕ} (hnum : 0 < num) (hden : 0 < den)
    (hlow : -1100 ≤ Int.log 2 (num / den : ℚ)) (hhigh : Int.log 2 (num / den : ℚ) ≤ 1100) :
    (10 : ℚ) ^ (decimalExponent num den - 1) ≤ num / den := by
  have hx : (0 : ℚ) < num / den := by positivity
  have hlog := log_quotient hnum hden
  have hguess : (10 : ℚ) ^ (((num.log2 : ℤ) - den.log2) * 30103 / 100000 - 1 - 1) ≤ num / den := by
    refine le_trans (ten_zpow_le_two_zpow ?_ ?_) ((zpow_le_iff hx _).2 le_rfl) <;>
    · split_ifs at hlog <;> omega
  refine find?_exponent (fun top => (10 : ℚ) ^ (top - 1) ≤ num / den) (fun e he => ?_) hguess
  rw [lt_ten_zpow_iff num hden, decide_eq_false_iff_not, not_lt] at he
  rwa [Int.add_sub_cancel]

/-! ## Grids -/

theorem ratio_eq (m : ℕ) (e : ℤ) : 0 < (ratio m e).2 ∧ ((ratio m e).1 / (ratio m e).2 : ℚ) = m * 2 ^ e := by
  unfold ratio
  split_ifs with he
  · refine ⟨Nat.one_pos, ?_⟩
    have hcast := cast_pow_toNat 2 he
    push_cast at hcast
    rw [Nat.shiftLeft_eq, ← hcast]
    push_cast
    exact div_one _
  · have hcast := cast_pow_toNat_neg 2 (not_le.1 he).le
    push_cast at hcast
    rw [Nat.one_shiftLeft]
    refine ⟨by positivity, ?_⟩
    push_cast
    rw [hcast, div_inv_eq_mul]

theorem shiftDecimal_eq (num : ℕ) {den : ℕ} (h : 0 < den) (e : ℤ) :
    0 < (shiftDecimal num den e).2 ∧
      ((shiftDecimal num den e).1 / (shiftDecimal num den e).2 : ℚ) = num / den * 10 ^ e := by
  unfold shiftDecimal
  split_ifs with he
  · refine ⟨h, ?_⟩
    have hcast := cast_pow_toNat 10 he
    push_cast at hcast
    rw [← hcast, div_mul_eq_mul_div, tenTo, Nat.pow_eq]
    push_cast
    rfl
  · have hcast := cast_pow_toNat_neg 10 (not_le.1 he).le
    push_cast at hcast
    refine ⟨Nat.mul_pos h (Nat.pow_pos (by norm_num)), ?_⟩
    rw [← inv_inv ((10 : ℚ) ^ e), ← hcast, ← div_eq_mul_inv, div_div, tenTo, Nat.pow_eq]
    push_cast
    rfl

/-- the digits and the exponent are read as the number -/
def ReadsBack (m : ℕ) (e : ℤ) (decimal : ℕ × ℤ) : Prop :=
  ofDecimal false decimal.1 decimal.2 = .finite false m e

instance (m : ℕ) (e : ℤ) (decimal : ℕ × ℤ) : Decidable (ReadsBack m e decimal) := by
  unfold ReadsBack
  infer_instance

/-- the exponent of the steps of a grid -/
def stepOf (m : ℕ) (e : ℤ) (count : ℕ) : ℤ := decimalExponent (ratio m e).1 (ratio m e).2 - count

/-- the number in steps of a grid, as a quotient -/
def inSteps (m : ℕ) (e : ℤ) (count : ℕ) : ℕ × ℕ :=
  shiftDecimal (ratio m e).1 (ratio m e).2 (-stepOf m e count)

theorem roundDiv_eq_ite (a b : ℕ) : roundDiv a b =
    if decide (2 * (a % b) < b) || (2 * (a % b) == b && a / b % 2 == 0) then a / b else a / b + 1 := by
  simp only [roundDiv, Bool.or_eq_true, Bool.and_eq_true, decide_eq_true_eq, beq_iff_eq]
  split_ifs <;> omega

/-- of the two grid points next to the number the nearer is tried first -/
theorem onGrid?_eq (m : ℕ) (e : ℤ) (count : ℕ) : ∃ other, onGrid? m e count =
    let nearer := roundDiv (inSteps m e count).1 (inSteps m e count).2
    if ReadsBack m e (nearer, stepOf m e count) then some (nearer, stepOf m e count)
    else if ReadsBack m e (other, stepOf m e count) then some (other, stepOf m e count)
    else none := by
  have hstep : -((count : ℤ) - decimalExponent (ratio m e).1 (ratio m e).2) = stepOf m e count := neg_sub _ _
  have hscale : (count : ℤ) - decimalExponent (ratio m e).1 (ratio m e).2 = -stepOf m e count := by rw [← hstep, neg_neg]
  simp only [onGrid?, hscale, neg_neg, ← roundDiv_eq_ite, ReadsBack, beq_iff_eq, inSteps]
  exact ⟨_, rfl⟩

/-- what is found on a grid reads back -/
theorem readsBack_of_onGrid? {m count : ℕ} {e : ℤ} {decimal : ℕ × ℤ} (h : onGrid? m e count = some decimal) :
    ReadsBack m e decimal := by
  obtain ⟨other, heq⟩ := onGrid?_eq m e count
  rw [heq] at h
  dsimp only at h
  split_ifs at h with hnearer hother
  · exact Option.some.inj h ▸ hnearer
  · exact Option.some.inj h ▸ hother

/-- a step of the grid of seventeen digits is at most a part of `10 ^ 16` of the number -/
theorem ten_zpow_stepOf {m : ℕ} {e : ℤ} (hn : Normal m e) (hm : 0 < m) :
    10 ^ 16 * (10 : ℚ) ^ stepOf m e 17 ≤ m * 2 ^ e := by
  obtain ⟨hden, hvalue⟩ := ratio_eq m e
  have hone : (1 : ℚ) ≤ m := by exact_mod_cast hm
  have hfits : (m : ℚ) < 2 ^ 53 := by exact_mod_cast hn.fits
  have hx : (0 : ℚ) < m * 2 ^ e := by positivity
  have hnum : 0 < (ratio m e).1 := by
    rw [← hvalue] at hx
    by_contra hzero
    rw [Nat.eq_zero_of_not_pos hzero] at hx
    simp at hx
  have hlow : -1100 ≤ Int.log 2 (m * 2 ^ e : ℚ) := by
    have hle : e ≤ Int.log 2 (m * 2 ^ e : ℚ) := (zpow_le_iff hx e).1 (le_mul_of_one_le_left (by positivity) hone)
    have := hn.least
    simp only [minExponent] at this
    omega
  have hhigh : Int.log 2 (m * 2 ^ e : ℚ) ≤ 1100 := by
    have hlt : Int.log 2 (m * 2 ^ e : ℚ) < 53 + e := by
      rw [← lt_zpow_iff hx, zpow_add₀ two_ne_zero]
      exact mul_lt_mul_of_pos_right (by exact_mod_cast hfits) (by positivity)
    have := hn.greatest
    simp only [maxExponent] at this
    omega
  rw [← hvalue] at hlow hhigh ⊢
  refine le_trans (le_of_eq ?_) (ten_zpow_decimalExponent hnum hden hlow hhigh)
  rw [← zpow_natCast, ← zpow_add₀ (by norm_num)]
  refine congrArg _ ?_
  simp only [stepOf]
  push_cast
  omega

/-- **Seventeen digits suffice:** the nearest decimal of so many digits is read as the number. -/
theorem onGrid?_isSome {m : ℕ} {e : ℤ} (hn : Normal m e) (hm : 0 < m) : (onGrid? m e 17).isSome := by
  obtain ⟨hden, hvalue⟩ := ratio_eq m e
  obtain ⟨hsteps, hquotient⟩ := shiftDecimal_eq (ratio m e).1 hden (-stepOf m e 17)
  rw [hvalue] at hquotient
  have hfine := ten_zpow_stepOf hn hm
  have hstep : (0 : ℚ) < 10 ^ stepOf m e 17 := by positivity
  have hu : (0 : ℚ) < 2 ^ e := by positivity
  have hfits : (m : ℚ) < 2 ^ 53 := by exact_mod_cast hn.fits
  have hreads : ReadsBack m e (roundDiv (inSteps m e 17).1 (inSteps m e 17).2, stepOf m e 17) := by
    rw [ReadsBack, ofDecimal_eq, inSteps, roundDiv_eq _ hsteps, hquotient]
    dsimp only
    -- the nearer grid point is at most half a step away
    have herror : 2 * |(nearest (m * 2 ^ e * 10 ^ (-stepOf m e 17)) : ℚ) * 10 ^ stepOf m e 17 - m * 2 ^ e| ≤
        10 ^ stepOf m e 17 := by
      have hscaled : (m * 2 ^ e : ℚ) = m * 2 ^ e * 10 ^ (-stepOf m e 17) * 10 ^ stepOf m e 17 := by
        rw [mul_assoc _ _ ((10 : ℚ) ^ stepOf m e 17), ← zpow_add₀ (by norm_num)]
        simp
      have hnearest := nearest_error (show (0 : ℚ) ≤ m * 2 ^ e * 10 ^ (-stepOf m e 17) by positivity)
      generalize (m * 2 ^ e * 10 ^ (-stepOf m e 17) : ℚ) = steps at hscaled hnearest ⊢
      rw [abs_sub_comm, hscaled, ← sub_mul, abs_mul, abs_of_pos hstep, ← mul_assoc]
      exact mul_le_of_le_one_left hstep.le hnearest
    refine rounded_of_close hn hm ?_ (fun hpower => ?_) false
    · nlinarith
    · have hm' : (m : ℚ) = 2 ^ 52 := by exact_mod_cast hpower
      rw [hm'] at hfine
      linarith
  obtain ⟨other, heq⟩ := onGrid?_eq m e 17
  rw [heq]
  dsimp only
  rw [if_pos hreads]
  rfl

/-! ## The shortest decimal -/

theorem firstGrid_readsBack {m : ℕ} {e : ℤ} (hn : Normal m e) (hm : 0 < m) (fuel count : ℕ)
    (h : fuel + count = 17) : ReadsBack m e (firstGrid m e (fuel + 1) count) := by
  induction fuel generalizing count with
  | zero =>
    obtain rfl : count = 17 := by omega
    obtain ⟨decimal, hdecimal⟩ := Option.isSome_iff_exists.1 (onGrid?_isSome hn hm)
    rw [firstGrid, hdecimal]
    exact readsBack_of_onGrid? hdecimal
  | succ fuel ih =>
    rw [firstGrid]
    cases hgrid : onGrid? m e count with
    | none => exact ih _ (by omega)
    | some decimal => exact readsBack_of_onGrid? hgrid

/-- zeros that are removed are made up for by the exponent -/
theorem dropZeros_value (fuel d : ℕ) (e : ℤ) :
    ((dropZeros fuel d e).1 : ℚ) * 10 ^ (dropZeros fuel d e).2 = d * 10 ^ e := by
  induction fuel generalizing d e with
  | zero => rfl
  | succ fuel ih =>
    rw [dropZeros]
    split_ifs with h
    · simp only [Bool.and_eq_true, bne_iff_ne, beq_iff_eq] at h
      have hd : (d : ℚ) = (d / 10 : ℕ) * 10 := by exact_mod_cast (Nat.div_mul_cancel (Nat.dvd_of_mod_eq_zero h.2)).symm
      rw [ih, zpow_add_one₀ (by norm_num), hd]
      ring
    · rfl

theorem rounded_sign {x : ℚ} {m : ℕ} {e : ℤ} (h : rounded false x = .finite false m e) (negative : Bool) :
    rounded negative x = .finite negative m e := by
  simp only [rounded, carried] at h ⊢
  split_ifs at h ⊢ <;> cases h <;> rfl

/-- **The shortest decimal reads back:** its value is rounded to the number, with either sign. -/
theorem shortest_readsBack {m : ℕ} {e : ℤ} (hn : Normal m e) (hm : 0 < m) (negative : Bool) :
    rounded negative ((shortest m e).1 * 10 ^ (shortest m e).2) = .finite negative m e := by
  have hfirst := firstGrid_readsBack hn hm 16 1 rfl
  rw [ReadsBack, ofDecimal_eq, ← dropZeros_value 20] at hfirst
  exact rounded_sign hfirst negative

theorem shortest_pos {m : ℕ} {e : ℤ} (hn : Normal m e) (hm : 0 < m) : 0 < (shortest m e).1 := by
  have hreads := shortest_readsBack hn hm false
  by_contra hzero
  rw [Nat.eq_zero_of_not_pos hzero, Nat.cast_zero, zero_mul, rounded, if_pos rfl] at hreads
  injection hreads
  omega

end ClassNaming.Real64
