/-
Reading a decimal or a quotient as a number is rounding its rational value.

`Real64.rounded` rounds a rational to 53 bits, a tie going to the even mantissa. The computations on naturals, with
their guess of the exponent and their cut-offs for sizes far out of range, do no more and no less than that.

- `ofRatio_eq`, `ofDecimal_eq`: a quotient and a decimal are read as their value rounded.
- `rounded_isCanonical`: what is rounded is in the one form that each number has.
- `rounded_of_close`: a number is read from all that is within its share of the line.
-/
import Mathlib.Algebra.Order.Field.Power
import Mathlib.Algebra.Order.Floor.Semifield
import Mathlib.Data.Int.Log
import Mathlib.Data.Rat.Floor
import Mathlib.Tactic.Linarith
import Mathlib.Tactic.Positivity
import ClassNaming.Decimal.Real64

namespace ClassNaming.Real64

/-! ## The nearest natural -/

/-- the natural nearest to a rational that is not negative, a tie going to the even one -/
def nearest (x : ℚ) : ℕ :=
  if 2 * (x - ⌊x⌋₊) < 1 then ⌊x⌋₊
  else if 1 < 2 * (x - ⌊x⌋₊) then ⌊x⌋₊ + 1
  else if ⌊x⌋₊ % 2 = 0 then ⌊x⌋₊
  else ⌊x⌋₊ + 1

theorem nearest_error {x : ℚ} (h : 0 ≤ x) : 2 * |x - nearest x| ≤ 1 := by
  have hlow := Nat.floor_le h
  have hhigh := Nat.lt_floor_add_one x
  unfold nearest
  split_ifs <;> push_cast
  · rw [abs_of_nonneg] <;> linarith
  · rw [abs_of_nonpos] <;> linarith
  · rw [abs_of_nonneg] <;> linarith
  · rw [abs_of_nonpos] <;> linarith

/-- what is less than half away from a natural is rounded to it -/
theorem nearest_eq {x : ℚ} {n : ℕ} (h : 2 * |x - n| < 1) : nearest x = n := by
  obtain ⟨hlow, hhigh⟩ := abs_lt.1 (show |x - n| < 1 / 2 by linarith)
  rcases le_or_gt (n : ℚ) x with hn | hn
  · have hfloor : ⌊x⌋₊ = n := by
      rw [Nat.floor_eq_iff ((Nat.cast_nonneg n).trans hn)]
      exact ⟨hn, by linarith⟩
    rw [nearest, hfloor, if_pos (by linarith)]
  · cases n with
    | zero =>
      have hfloor : ⌊x⌋₊ = 0 := Nat.floor_of_nonpos (by simpa using hn.le)
      rw [nearest, hfloor, if_pos (by push_cast at hn ⊢; linarith)]
    | succ n =>
      push_cast at hlow hhigh hn
      have hx : (0 : ℚ) ≤ x := by
        have : (0 : ℚ) ≤ n := Nat.cast_nonneg n
        linarith
      have hfloor : ⌊x⌋₊ = n := by
        rw [Nat.floor_eq_iff hx]
        constructor <;> linarith
      rw [nearest, hfloor, if_neg (by linarith), if_pos (by linarith)]

theorem roundDiv_eq (num : ℕ) {den : ℕ} (h : 0 < den) : roundDiv num den = nearest (num / den) := by
  have hden : (0 : ℚ) < den := by exact_mod_cast h
  have hfloor : ⌊(num / den : ℚ)⌋₊ = num / den := Nat.floor_div_eq_div num den
  have hrest : (num / den : ℚ) - (num / den : ℕ) = (num % den : ℕ) / den := by
    have hsum : (num : ℚ) = den * (num / den : ℕ) + (num % den : ℕ) := by exact_mod_cast (Nat.div_add_mod num den).symm
    rw [eq_div_iff hden.ne', sub_mul, div_mul_cancel₀ _ hden.ne']
    linarith
  have hless : 2 * ((num % den : ℕ) / den : ℚ) < 1 ↔ 2 * (num % den) < den := by
    rw [← mul_div_assoc, div_lt_one hden]
    exact_mod_cast Iff.rfl
  have hmore : 1 < 2 * ((num % den : ℕ) / den : ℚ) ↔ den < 2 * (num % den) := by
    rw [← mul_div_assoc, one_lt_div hden]
    exact_mod_cast Iff.rfl
  simp only [nearest, hfloor, hrest, hless, hmore, roundDiv, beq_iff_eq]

/-! ## Powers -/

theorem cast_pow_toNat (b : ℕ) {e : ℤ} (h : 0 ≤ e) : ((b ^ e.toNat : ℕ) : ℚ) = (b : ℚ) ^ e := by
  rw [Nat.cast_pow, ← zpow_natCast, Int.toNat_of_nonneg h]

theorem cast_pow_toNat_neg (b : ℕ) {e : ℤ} (h : e ≤ 0) : ((b ^ (-e).toNat : ℕ) : ℚ) = ((b : ℚ) ^ e)⁻¹ := by
  rw [cast_pow_toNat b (by omega), zpow_neg]

/-- powers of two and of ten compared by their exponents -/
theorem two_pow_le_ten_pow {a b : ℕ} (h : 28 * a ≤ 93 * b) : 2 ^ a ≤ 10 ^ b := by
  refine le_of_pow_le_pow_left₀ (n := 28) (by norm_num) (by positivity) ?_
  calc (2 ^ a) ^ 28 = 2 ^ (28 * a) := by rw [← pow_mul, mul_comm]
    _ ≤ 2 ^ (93 * b) := Nat.pow_le_pow_right (by norm_num) h
    _ = (2 ^ 93) ^ b := pow_mul _ _ _
    _ ≤ (10 ^ 28) ^ b := Nat.pow_le_pow_left (by norm_num) b
    _ = (10 ^ b) ^ 28 := by rw [← pow_mul, ← pow_mul, mul_comm]

theorem ten_pow_le_two_pow {a b : ℕ} (h : 10 * b ≤ 3 * a) : 10 ^ b ≤ 2 ^ a := by
  refine le_of_pow_le_pow_left₀ (n := 10) (by norm_num) (by positivity) ?_
  calc (10 ^ b) ^ 10 = 10 ^ (10 * b) := by rw [← pow_mul, mul_comm]
    _ ≤ 10 ^ (3 * a) := Nat.pow_le_pow_right (by norm_num) h
    _ = (10 ^ 3) ^ a := pow_mul _ _ _
    _ ≤ (2 ^ 10) ^ a := Nat.pow_le_pow_left (by norm_num) a
    _ = (2 ^ a) ^ 10 := by rw [← pow_mul, ← pow_mul, mul_comm]

/-! ## The exponent -/

/-- the exponent of the last place of a number of this size -/
def placeOf (x : ℚ) : ℤ := max minExponent (Int.log 2 x - 52)

theorem zpow_le_iff {x : ℚ} (hx : 0 < x) (k : ℤ) : (2 : ℚ) ^ k ≤ x ↔ k ≤ Int.log 2 x := by
  exact_mod_cast Int.zpow_le_iff_le_log Nat.one_lt_two hx

theorem lt_zpow_iff {x : ℚ} (hx : 0 < x) (k : ℤ) : x < (2 : ℚ) ^ k ↔ Int.log 2 x < k := by
  rw [← not_le, zpow_le_iff hx, not_le]

theorem log2_bounds {n : ℕ} (h : 0 < n) : (2 : ℚ) ^ (n.log2 : ℤ) ≤ n ∧ (n : ℚ) < 2 ^ (n.log2 + 1 : ℤ) := by
  constructor
  · rw [zpow_natCast]
    exact_mod_cast Nat.log2_self_le h.ne'
  · have hlt : (n : ℚ) < 2 ^ (n.log2 + 1) := by exact_mod_cast Nat.lt_log2_self (n := n)
    exact_mod_cast hlt

theorem log_quotient {num den : ℕ} (hnum : 0 < num) (hden : 0 < den) :
    Int.log 2 (num / den : ℚ) =
      if (2 : ℚ) ^ ((num.log2 : ℤ) - den.log2) ≤ num / den then (num.log2 : ℤ) - den.log2
      else (num.log2 : ℤ) - den.log2 - 1 := by
  have hn : (0 : ℚ) < num := by exact_mod_cast hnum
  have hd : (0 : ℚ) < den := by exact_mod_cast hden
  have hx : (0 : ℚ) < num / den := div_pos hn hd
  obtain ⟨hnum₁, hnum₂⟩ := log2_bounds hnum
  obtain ⟨hden₁, hden₂⟩ := log2_bounds hden
  have hlow : (num.log2 : ℤ) - den.log2 - 1 ≤ Int.log 2 (num / den : ℚ) := by
    rw [← zpow_le_iff hx, le_div_iff₀ hd]
    calc (2 : ℚ) ^ ((num.log2 : ℤ) - den.log2 - 1) * den
        ≤ 2 ^ ((num.log2 : ℤ) - den.log2 - 1) * 2 ^ (den.log2 + 1 : ℤ) := by gcongr
      _ = 2 ^ (num.log2 : ℤ) := by rw [← zpow_add₀ two_ne_zero]; ring_nf
      _ ≤ num := hnum₁
  have hhigh : Int.log 2 (num / den : ℚ) < (num.log2 : ℤ) - den.log2 + 1 := by
    rw [← lt_zpow_iff hx, div_lt_iff₀ hd]
    calc (num : ℚ) < 2 ^ (num.log2 + 1 : ℤ) := hnum₂
      _ = 2 ^ ((num.log2 : ℤ) - den.log2 + 1) * 2 ^ (den.log2 : ℤ) := by rw [← zpow_add₀ two_ne_zero]; ring_nf
      _ ≤ 2 ^ ((num.log2 : ℤ) - den.log2 + 1) * den := by gcongr
  simp only [zpow_le_iff hx]
  split_ifs <;> omega

theorem ratioExponent_eq {num den : ℕ} (hnum : 0 < num) (hden : 0 < den) :
    ratioExponent num den = placeOf (num / den) := by
  have hd : (0 : ℚ) < den := by exact_mod_cast hden
  have hexact : (if 0 ≤ (num.log2 : ℤ) - den.log2 - 52 then
        den <<< (((num.log2 : ℤ) - den.log2 - 52).toNat + 52) ≤ num
      else den <<< 52 ≤ num <<< (-((num.log2 : ℤ) - den.log2 - 52)).toNat) ↔
      (2 : ℚ) ^ ((num.log2 : ℤ) - den.log2) ≤ num / den := by
    rw [le_div_iff₀ hd]
    generalize hg : (num.log2 : ℤ) - den.log2 - 52 = guess
    have hpow : (2 : ℚ) ^ ((num.log2 : ℤ) - den.log2) = 2 ^ guess * 2 ^ 52 := by
      rw [← zpow_natCast, ← zpow_add₀ two_ne_zero, ← hg]
      norm_num
    rw [hpow]
    split_ifs with h
    · have hcast := cast_pow_toNat 2 h
      push_cast at hcast
      rw [← hcast, Nat.shiftLeft_eq, pow_add, mul_comm den]
      exact_mod_cast Iff.rfl
    · have hcast := cast_pow_toNat_neg 2 (not_le.1 h).le
      push_cast at hcast
      have hinv : (2 : ℚ) ^ guess = (2 ^ (-guess).toNat)⁻¹ := by rw [hcast, inv_inv]
      rw [hinv, mul_assoc, inv_mul_le_iff₀ (by positivity), Nat.shiftLeft_eq, Nat.shiftLeft_eq, mul_comm den,
        mul_comm num]
      exact_mod_cast Iff.rfl
  simp only [ratioExponent, placeOf, hexact, log_quotient hnum hden]
  split_ifs <;> omega

/-! ## Rounding -/

/-- a mantissa with its exponent; a 54th bit is carried, and beyond the greatest exponent there is nothing finite -/
def carried (negative : Bool) (m : ℕ) (e : ℤ) : Real64 :=
  let (m, e) := if m = 2 ^ 53 then (2 ^ 52, e + 1) else (m, e)
  if maxExponent < e then .infinite negative else .finite negative m e

/-- the number nearest to a rational that is not negative, with a sign -/
def rounded (negative : Bool) (x : ℚ) : Real64 :=
  if x = 0 then .finite negative 0 minExponent else carried negative (nearest (x / 2 ^ placeOf x)) (placeOf x)

theorem roundScaled_eq (num : ℕ) {den : ℕ} (h : 0 < den) (e : ℤ) :
    roundScaled num den e = nearest (num / den / 2 ^ e) := by
  unfold roundScaled
  split_ifs with he
  · have hcast := cast_pow_toNat 2 he
    push_cast at hcast
    rw [Nat.shiftLeft_eq, roundDiv_eq num (by positivity), div_div, ← hcast]
    push_cast
    rfl
  · have hcast := cast_pow_toNat_neg 2 (not_le.1 he).le
    push_cast at hcast
    rw [Nat.shiftLeft_eq, roundDiv_eq _ h, div_right_comm, div_eq_mul_inv (num : ℚ), ← hcast]
    push_cast
    rfl

/-- a quotient is read as its value rounded -/
theorem ofRatio_eq (negative : Bool) (num : ℕ) {den : ℕ} (h : 0 < den) :
    ofRatio negative num den = rounded negative (num / den) := by
  have hden : (den : ℚ) ≠ 0 := by exact_mod_cast h.ne'
  rcases Nat.eq_zero_or_pos num with rfl | hnum
  · simp [ofRatio, rounded]
  · have hne : (num / den : ℚ) ≠ 0 := div_ne_zero (by exact_mod_cast hnum.ne') hden
    have hnum' : ¬ (num == 0) = true := by simpa using hnum.ne'
    rw [ofRatio, if_neg hnum', rounded, if_neg hne]
    simp [carried, Nat.shiftLeft_eq, ratioExponent_eq hnum h, roundScaled_eq num h]

theorem carried_of_lt {m : ℕ} {e : ℤ} (h : m < 2 ^ 53) (negative : Bool) :
    carried negative m e = if maxExponent < e then .infinite negative else .finite negative m e := by
  simp only [carried, if_neg h.ne]

theorem carried_full (e : ℤ) (negative : Bool) :
    carried negative (2 ^ 53) e =
      if maxExponent < e + 1 then .infinite negative else .finite negative (2 ^ 52) (e + 1) := by
  simp only [carried, if_true]

/-- what is far beyond the greatest number is infinite -/
theorem rounded_of_great {x : ℚ} (h : 2 ^ (1100 : ℤ) ≤ x) (negative : Bool) :
    rounded negative x = .infinite negative := by
  have hx : 0 < x := lt_of_lt_of_le (by positivity) h
  have hlog := (zpow_le_iff hx _).1 h
  have hplace : maxExponent < placeOf x := by
    simp only [maxExponent, placeOf]
    omega
  rw [rounded, if_neg hx.ne', carried]
  split_ifs <;> simp only [] <;> rw [if_pos (by omega)]

/-- what is far below the least number is zero -/
theorem rounded_of_small {x : ℚ} (h₀ : 0 < x) (h : x < 2 ^ (-1100 : ℤ)) (negative : Bool) :
    rounded negative x = .finite negative 0 minExponent := by
  have hlog := (lt_zpow_iff h₀ _).1 h
  have hplace : placeOf x = minExponent := by
    simp only [placeOf, minExponent]
    omega
  have hnearest : nearest (x / 2 ^ minExponent) = 0 := by
    refine nearest_eq ?_
    have hquotient : x / 2 ^ minExponent < 1 / 4 := by
      rw [div_lt_iff₀ (by positivity)]
      calc x < 2 ^ (-1100 : ℤ) := h
        _ ≤ 2 ^ (-1076 : ℤ) := zpow_le_zpow_right₀ one_le_two (by norm_num)
        _ = 1 / 4 * 2 ^ minExponent := by
          rw [show (1 / 4 : ℚ) = 2 ^ (-2 : ℤ) by norm_num, ← zpow_add₀ two_ne_zero]
          rfl
    have hpos : 0 < x / 2 ^ minExponent := by positivity
    rw [Nat.cast_zero, sub_zero, abs_of_pos hpos]
    linarith
  rw [rounded, if_neg h₀.ne', hplace, hnearest, carried_of_lt (by norm_num)]
  rfl

/-- **Correct rounding.** A decimal is read as its value rounded, also where a cut-off stands in for the computation. -/
theorem ofDecimal_eq (negative : Bool) (digits : ℕ) (exponent : ℤ) :
    ofDecimal negative digits exponent = rounded negative (digits * 10 ^ exponent) := by
  rcases Nat.eq_zero_or_pos digits with rfl | hdigits
  · simp [ofDecimal, rounded]
  have hd : (0 : ℚ) < digits := by exact_mod_cast hdigits
  have hdigits' : ¬ (digits == 0) = true := by simpa using hdigits.ne'
  rw [ofDecimal, if_neg hdigits']
  dsimp only
  split_ifs with hgreat hsmall hsign
  · -- at least `10 ^ 401`
    refine (rounded_of_great ?_ negative).symm
    have hpow : (2 : ℚ) ^ 1100 ≤ 10 ^ 401 := by exact_mod_cast two_pow_le_ten_pow (a := 1100) (b := 401) (by norm_num)
    have hone : (1 : ℚ) ≤ digits := by exact_mod_cast hdigits
    calc (2 : ℚ) ^ (1100 : ℤ) ≤ 10 ^ (401 : ℤ) := by exact_mod_cast hpow
      _ ≤ 10 ^ exponent := zpow_le_zpow_right₀ (by norm_num) (by omega)
      _ ≤ digits * 10 ^ exponent := le_mul_of_one_le_left (by positivity) hone
  · -- below `10 ^ -400`
    refine (rounded_of_small (by positivity) ?_ negative).symm
    have hten : 2 ^ (digits.log2 + 1) ≤ 10 ^ (digits.log2 / 3 + 2) := two_pow_le_ten_pow (by omega)
    have hlt : (digits : ℚ) < 10 ^ (digits.log2 / 3 + 2) := by exact_mod_cast Nat.lt_log2_self.trans_le hten
    have hpow : (2 : ℚ) ^ 1100 ≤ 10 ^ 400 := by exact_mod_cast two_pow_le_ten_pow (a := 1100) (b := 400) (by norm_num)
    calc (digits : ℚ) * 10 ^ exponent
        < 10 ^ (digits.log2 / 3 + 2) * 10 ^ exponent := by gcongr
      _ = 10 ^ ((digits.log2 / 3 + 2 : ℕ) + exponent : ℤ) := by rw [zpow_add₀ (by norm_num), zpow_natCast]
      _ ≤ 10 ^ (-400 : ℤ) := zpow_le_zpow_right₀ (by norm_num) (by push_cast; omega)
      _ ≤ 2 ^ (-1100 : ℤ) := by
        rw [zpow_neg, zpow_neg]
        exact inv_anti₀ (by positivity) (by exact_mod_cast hpow)
  · have hcast := cast_pow_toNat 10 hsign
    rw [ofRatio_eq _ _ Nat.one_pos, Nat.cast_one, div_one, Nat.cast_mul]
    exact congrArg (fun p : ℚ => rounded negative (digits * p)) (by exact_mod_cast hcast)
  · have hcast := cast_pow_toNat_neg 10 (not_le.1 hsign).le
    have hpos : 0 < tenTo (-exponent).toNat := Nat.pow_pos (by norm_num)
    rw [ofRatio_eq _ _ hpos, div_eq_mul_inv]
    refine congrArg (fun p : ℚ => rounded negative (digits * p)) ?_
    rw [show tenTo (-exponent).toNat = 10 ^ (-exponent).toNat from rfl, hcast, inv_inv]
    norm_num

/-! ## The form of a number -/

/-- a mantissa of 53 bits, or one that is shorter at the least exponent -/
structure Normal (m : ℕ) (e : ℤ) : Prop where
  fits : m < 2 ^ 53
  least : minExponent ≤ e
  greatest : e ≤ maxExponent
  full : 2 ^ 52 ≤ m ∨ e = minExponent

theorem normal_zero : Normal 0 minExponent :=
  ⟨by norm_num, le_rfl, by decide, Or.inr rfl⟩

/-- the one form that each number has -/
def IsCanonical : Real64 → Prop
  | .finite _ m e => Normal m e
  | _ => True

theorem carried_isCanonical {m : ℕ} {e : ℤ} (hm : m ≤ 2 ^ 53) (he : minExponent ≤ e)
    (hfull : 2 ^ 52 ≤ m ∨ e = minExponent) (negative : Bool) : (carried negative m e).IsCanonical := by
  rcases hm.lt_or_eq with hlt | rfl
  · rw [carried_of_lt hlt]
    split_ifs with hgreat
    · trivial
    · exact ⟨hlt, he, not_lt.1 hgreat, hfull⟩
  · rw [carried_full]
    split_ifs with hgreat
    · trivial
    · exact ⟨by norm_num, by omega, not_lt.1 hgreat, Or.inl le_rfl⟩

/-- the last place of a number is at most its size in 53 bits -/
theorem lt_placeOf {x : ℚ} (hx : 0 < x) : x / 2 ^ placeOf x < 2 ^ 53 := by
  rw [div_lt_iff₀ (by positivity), ← zpow_natCast, ← zpow_add₀ two_ne_zero, lt_zpow_iff hx]
  have hplace : Int.log 2 x - 52 ≤ placeOf x := le_max_right _ _
  push_cast
  omega

theorem placeOf_le {x : ℚ} (hx : 0 < x) (h : placeOf x ≠ minExponent) : 2 ^ 52 ≤ x / 2 ^ placeOf x := by
  rw [le_div_iff₀ (by positivity), ← zpow_natCast, ← zpow_add₀ two_ne_zero, zpow_le_iff hx]
  simp only [placeOf] at h ⊢
  push_cast
  omega

theorem rounded_isCanonical (negative : Bool) {x : ℚ} (h : 0 ≤ x) : (rounded negative x).IsCanonical := by
  rcases h.eq_or_lt with rfl | hx
  · rw [rounded, if_pos rfl]
    exact normal_zero
  rw [rounded, if_neg hx.ne']
  have hy : 0 ≤ x / 2 ^ placeOf x := by positivity
  obtain ⟨hlow, hhigh⟩ := abs_le.1 (show |x / 2 ^ placeOf x - nearest (x / 2 ^ placeOf x)| ≤ 1 / 2 by
    linarith [nearest_error hy])
  refine carried_isCanonical ?_ (le_max_left _ _) ?_ negative
  · have hlt : (nearest (x / 2 ^ placeOf x) : ℚ) < (2 ^ 53 + 1 : ℕ) := by
      push_cast
      linarith [lt_placeOf hx]
    exact Nat.lt_succ_iff.1 (by exact_mod_cast hlt)
  · by_cases hplace : placeOf x = minExponent
    · exact Or.inr hplace
    · have hlt : ((2 ^ 52 : ℕ) : ℚ) < (nearest (x / 2 ^ placeOf x) + 1 : ℕ) := by
        push_cast
        linarith [placeOf_le hx hplace]
      exact Or.inl (Nat.lt_succ_iff.1 (by exact_mod_cast hlt))

theorem ofDecimal_isCanonical (negative : Bool) (digits : ℕ) (exponent : ℤ) :
    (ofDecimal negative digits exponent).IsCanonical := by
  rw [ofDecimal_eq]
  exact rounded_isCanonical negative (by positivity)

/-! ## The share of a number -/

theorem nearest_scaled {x u : ℚ} {n : ℕ} (hu : 0 < u) (h : 2 * |x - n * u| < u) : nearest (x / u) = n := by
  refine nearest_eq ?_
  have hscaled : x / u - n = (x - n * u) / u := by
    rw [sub_div, mul_div_cancel_right₀ _ hu.ne']
  rw [hscaled, abs_div, abs_of_pos hu, ← mul_div_assoc, div_lt_one hu]
  exact h

/-- A number is read from all that is less than half of its last place away. The last place below a power of two is
half as wide as the one above, so there it is a quarter. -/
theorem rounded_of_close {m : ℕ} {e : ℤ} (hn : Normal m e) (hm : 0 < m) {x : ℚ} (h : 2 * |x - m * 2 ^ e| < 2 ^ e)
    (hpower : m = 2 ^ 52 → 4 * |x - m * 2 ^ e| < 2 ^ e) (negative : Bool) :
    rounded negative x = .finite negative m e := by
  have hu : (0 : ℚ) < 2 ^ e := by positivity
  have hone : (1 : ℚ) ≤ m := by exact_mod_cast hm
  have hfits : (m : ℚ) + 1 ≤ 2 ^ 53 := by exact_mod_cast hn.fits
  obtain ⟨hlow, hhigh⟩ := abs_lt.1 (show |x - m * 2 ^ e| < 2 ^ e / 2 by linarith)
  have hx : 0 < x := by nlinarith
  have hpow : ∀ k : ℕ, (2 : ℚ) ^ (e + k) = 2 ^ k * 2 ^ e := fun k => by
    rw [zpow_add₀ two_ne_zero, zpow_natCast, mul_comm]
  have hless : Int.log 2 x < e + 53 := by
    rw [← lt_zpow_iff hx, show e + 53 = e + (53 : ℕ) from rfl, hpow]
    nlinarith
  have hgreat : ¬ maxExponent < e := not_lt.2 hn.greatest
  by_cases hplace : placeOf x = e
  · rw [rounded, if_neg hx.ne', hplace, nearest_scaled hu h, carried_of_lt hn.fits, if_neg hgreat]
  -- the value is just below the power of two that the number is
  have hbelow : Int.log 2 x < e + 52 ∧ e ≠ minExponent := by
    have := hn.least
    simp only [placeOf] at hplace
    omega
  have hm52 : m = 2 ^ 52 := by
    have hlt := (lt_zpow_iff hx (e + 52)).2 hbelow.1
    rw [show e + 52 = e + (52 : ℕ) from rfl, hpow] at hlt
    have hle : (m : ℚ) < (2 ^ 52 + 1 : ℕ) := by
      push_cast
      nlinarith
    have hm' : m < 2 ^ 52 + 1 := by exact_mod_cast hle
    have hfull := hn.full.resolve_right hbelow.2
    omega
  have hhalf : (2 : ℚ) ^ e = 2 * 2 ^ (e - 1) := by
    rw [← zpow_one_add₀ two_ne_zero]
    ring_nf
  have hplace' : placeOf x = e - 1 := by
    have hlow' : e + 51 ≤ Int.log 2 x := by
      rw [← zpow_le_iff hx, show e + 51 = e + (51 : ℕ) from rfl, hpow]
      rw [hm52] at hlow
      push_cast at hlow
      nlinarith
    have := hn.least
    simp only [placeOf]
    omega
  have hnearest : nearest (x / 2 ^ (e - 1)) = 2 ^ 53 := by
    refine nearest_scaled (by positivity) ?_
    have hquarter := hpower hm52
    have hsame : ((2 ^ 53 : ℕ) : ℚ) * 2 ^ (e - 1) = m * 2 ^ e := by
      rw [hm52, hhalf]
      push_cast
      ring
    rw [hsame]
    linarith
  rw [rounded, if_neg hx.ne', hplace', hnearest, carried_full, Int.sub_add_cancel, if_neg hgreat, hm52]

end ClassNaming.Real64
