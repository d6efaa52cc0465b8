/-
Text written as bytes is read back.

- `decodeFrom_encodeChar`: the bytes of one character are taken off the front as that character.
- `decode_encode`: so the bytes of a text are those of that text only.
- `unifyLineEnds_of_notMem`: a text without carriage returns keeps its line ends.
- `unifyLineEnds_append`, `infix_of_unifyLineEnds`: line ends are unified part by part, and no word comes of it.
-/
import Mathlib.Data.List.Infix
import Mathlib.Tactic.SplitIfs
import ClassNaming.Text.Utf8

namespace ClassNaming.Utf8

/-! ## One character -/

/-- a byte after the first -/
def tail (bits : Nat) : UInt8 := UInt8.ofNat (0x80 + bits % 64)

theorem encodeChar_eq (c : Char) : encodeChar c =
    if c.toNat < 0x80 then [UInt8.ofNat c.toNat]
    else if c.toNat < 0x800 then [UInt8.ofNat (0xc0 + c.toNat / 64), tail c.toNat]
    else if c.toNat < 0x10000 then [UInt8.ofNat (0xe0 + c.toNat / 4096), tail (c.toNat / 64), tail c.toNat]
    else [UInt8.ofNat (0xf0 + c.toNat / 262144), tail (c.toNat / 4096), tail (c.toNat / 64), tail c.toNat] := rfl

theorem toNat_ofNat_of_lt {n : Nat} (h : n < 256) : (UInt8.ofNat n).toNat = n := by
  simp [Nat.mod_eq_of_lt h]

theorem toNat_tail (bits : Nat) : (tail bits).toNat = 0x80 + bits % 64 :=
  toNat_ofNat_of_lt (by omega)

theorem follow_tail {more taken low high value bits : Nat} {rest : List UInt8} (hlow : low ≤ 0x80 + bits % 64)
    (hhigh : 0x80 + bits % 64 ≤ high) :
    follow (more + 1) taken low high value (tail bits :: rest) =
      follow more (taken + 1) 0x80 0xbf (64 * value + bits % 64) rest := by
  have hbits : (0x80 + bits % 64) % 64 = bits % 64 := by omega
  simp [follow, toNat_tail, hlow, hhigh, hbits]

theorem lead?_two {n : Nat} (hlow : 0x80 ≤ n) (hhigh : n < 0x800) :
    lead? (0xc0 + n / 64) = some ⟨1, n / 64, 0x80, 0xbf⟩ := by
  have h : (0xc2 ≤ 0xc0 + n / 64 && 0xc0 + n / 64 ≤ 0xdf) = true := by
    simp only [Bool.and_eq_true, decide_eq_true_eq]
    omega
  rw [lead?, if_pos h, Nat.add_sub_cancel_left]

/-- a start of three bytes allows the second one, which no surrogate has -/
theorem lead?_three {n : Nat} (hlow : 0x800 ≤ n) (hhigh : n < 0x10000) (hvalid : n < 0xd800 ∨ 0xdfff < n) :
    ∃ low high, lead? (0xe0 + n / 4096) = some ⟨2, n / 4096, low, high⟩ ∧ low ≤ 0x80 + n / 64 % 64 ∧
      0x80 + n / 64 % 64 ≤ high := by
  unfold lead?
  simp only [Bool.and_eq_true, decide_eq_true_eq, beq_iff_eq, Nat.add_sub_cancel_left]
  split_ifs with h1 h2 h3 h4 h5 h6 h7
  · omega
  · exact ⟨_, _, by rw [show n / 4096 = 0 by omega], by omega, by omega⟩
  · exact ⟨_, _, by rw [show n / 4096 = 0xd by omega], by omega, by omega⟩
  · exact ⟨_, _, rfl, by omega, by omega⟩
  all_goals omega

theorem lead?_four {n : Nat} (hlow : 0x10000 ≤ n) (hhigh : n < 0x110000) :
    ∃ low high, lead? (0xf0 + n / 262144) = some ⟨3, n / 262144, low, high⟩ ∧ low ≤ 0x80 + n / 4096 % 64 ∧
      0x80 + n / 4096 % 64 ≤ high := by
  unfold lead?
  simp only [Bool.and_eq_true, decide_eq_true_eq, beq_iff_eq, Nat.add_sub_cancel_left]
  split_ifs with h1 h2 h3 h4 h5 h6 h7
  · omega
  · omega
  · omega
  · omega
  · exact ⟨_, _, by rw [show n / 262144 = 0 by omega], by omega, by omega⟩
  · exact ⟨_, _, by rw [show n / 262144 = 4 by omega], by omega, by omega⟩
  · exact ⟨_, _, rfl, by omega, by omega⟩
  · omega

theorem toNat_valid (c : Char) : c.toNat < 0xd800 ∨ (0xdfff < c.toNat ∧ c.toNat < 0x110000) := c.valid

theorem decodeFrom_encodeChar (c : Char) (fuel position : Nat) (rest : List UInt8) :
    ∃ next, decodeFrom (fuel + 1) position (encodeChar c ++ rest) = (decodeFrom fuel next rest).map (c :: ·) := by
  have hvalid := toNat_valid c
  have hc : Char.ofNat c.toNat = c := Char.ofNat_toNat c
  rw [encodeChar_eq]
  generalize c.toNat = n at hvalid hc ⊢
  split_ifs with h1 h2 h3
  · refine ⟨position + 1, ?_⟩
    have hb := toNat_ofNat_of_lt (n := n) (by omega)
    simp only [List.cons_append, List.nil_append, decodeFrom, hb, h1, if_true, hc]
  · have hb := toNat_ofNat_of_lt (n := 0xc0 + n / 64) (by omega)
    have hlead := lead?_two (n := n) (by omega) h2
    have hvalue : 64 * (n / 64) + n % 64 = n := Nat.div_add_mod n 64
    refine ⟨position + 1 + 1, ?_⟩
    simp only [List.cons_append, List.nil_append, decodeFrom, hb, hlead]
    rw [if_neg (by omega), follow_tail (by omega) (by omega)]
    simp only [follow, hvalue, hc]
  · have hb := toNat_ofNat_of_lt (n := 0xe0 + n / 4096) (by omega)
    obtain ⟨low, high, hlead, hlow, hhigh⟩ := lead?_three (n := n) (by omega) h3 (by omega)
    have hvalue : 64 * (64 * (n / 4096) + n / 64 % 64) + n % 64 = n := by omega
    refine ⟨position + 2 + 1, ?_⟩
    simp only [List.cons_append, List.nil_append, decodeFrom, hb, hlead]
    rw [if_neg (by omega), follow_tail hlow hhigh, follow_tail (by omega) (by omega)]
    simp only [follow, hvalue, hc]
  · have hb := toNat_ofNat_of_lt (n := 0xf0 + n / 262144) (by omega)
    obtain ⟨low, high, hlead, hlow, hhigh⟩ := lead?_four (n := n) (by omega) (by omega)
    have hvalue : 64 * (64 * (64 * (n / 262144) + n / 4096 % 64) + n / 64 % 64) + n % 64 = n := by omega
    refine ⟨position + 3 + 1, ?_⟩
    simp only [List.cons_append, List.nil_append, decodeFrom, hb, hlead]
    rw [if_neg (by omega), follow_tail hlow hhigh, follow_tail (by omega) (by omega),
      follow_tail (by omega) (by omega)]
    simp only [follow, hvalue, hc]

/-! ## Texts -/

theorem decodeFrom_encode {cs : List Char} {fuel : Nat} (h : cs.length ≤ fuel) (position : Nat) :
    decodeFrom fuel position (encode cs) = .ok cs := by
  induction cs generalizing fuel position with
  | nil => cases fuel <;> rfl
  | cons c cs ih =>
    obtain ⟨fuel, rfl⟩ : ∃ k, fuel = k + 1 := Nat.exists_eq_add_one.2 (Nat.lt_of_lt_of_le (Nat.succ_pos _) h)
    obtain ⟨next, hnext⟩ := decodeFrom_encodeChar c fuel position (encode cs)
    have hcs : cs.length ≤ fuel := Nat.le_of_succ_le_succ h
    rw [encode, List.flatMap_cons, ← encode, hnext, ih hcs]
    rfl

theorem length_le_encode (cs : List Char) : cs.length ≤ (encode cs).length := by
  induction cs with
  | nil => exact Nat.le_refl 0
  | cons c cs ih =>
    have hpos : 0 < (encodeChar c).length := by
      rw [encodeChar_eq]
      split_ifs <;> simp
    rw [encode, List.flatMap_cons, ← encode, List.length_append, List.length_cons]
    omega

theorem decode_encode (cs : List Char) : decode (encode cs) = .ok cs :=
  decodeFrom_encode (length_le_encode cs) 0

end ClassNaming.Utf8

namespace ClassNaming.Text

theorem unifyLineEnds_of_notMem {cs : List Char} (h : '\r' ∉ cs) : unifyLineEnds cs = cs := by
  fun_induction unifyLineEnds cs with
  | case1 => rfl
  | case2 rest ih => exact absurd List.mem_cons_self h
  | case3 c rest hcr ih =>
    have hc : (c == '\r') = false := by
      simp only [beq_eq_false_iff_ne]
      exact fun hc => h (hc ▸ List.mem_cons_self)
    rw [hc, ih (fun hr => h (List.mem_cons_of_mem _ hr))]
    rfl

theorem unifyLineEnds_cons {c : Char} (h : c ≠ '\r') (cs : List Char) :
    unifyLineEnds (c :: cs) = c :: unifyLineEnds cs := by
  rw [unifyLineEnds.eq_3 c cs (fun _ hc => absurd hc h)]
  simp [h]

/-- line ends are unified on both sides of a place where no pair of them is cut -/
theorem unifyLineEnds_append (xs : List Char) {ys : List Char} (h : ys.head? ≠ some '\n') :
    unifyLineEnds (xs ++ ys) = unifyLineEnds xs ++ unifyLineEnds ys := by
  fun_induction unifyLineEnds xs with
  | case1 => rfl
  | case2 rest ih =>
    rw [List.cons_append, List.cons_append, unifyLineEnds, ih]
    rfl
  | case3 c rest hpair ih =>
    have hcut : ∀ more, c = '\r' → rest ++ ys = '\n' :: more → False := by
      intro more hc hmore
      cases rest with
      | nil =>
        rw [List.nil_append] at hmore
        exact h (by rw [hmore]; rfl)
      | cons d rest =>
        obtain rfl := (List.cons.inj hmore).1
        exact hpair rest hc rfl
    rw [List.cons_append, unifyLineEnds.eq_3 c (rest ++ ys) hcut, ih]
    rfl

theorem not_prefix_lineFeed {word cs : List Char} (hword : '\n' ∉ word) (hne : word ≠ []) :
    ¬ word <+: '\n' :: cs := by
  intro h
  obtain ⟨c, word, rfl⟩ := List.exists_cons_of_ne_nil hne
  obtain ⟨rfl, -⟩ := List.cons_prefix_cons.1 h
  exact hword List.mem_cons_self

theorem prefix_of_unifyLineEnds {word cs : List Char} (hword : '\n' ∉ word) (h : word <+: unifyLineEnds cs) :
    word <+: cs := by
  induction word generalizing cs with
  | nil => exact List.nil_prefix
  | cons d word ih =>
    fun_cases unifyLineEnds cs with
    | case1 => exact h
    | case2 rest => exact absurd h (not_prefix_lineFeed hword (List.cons_ne_nil d word))
    | case3 c rest hpair =>
      rw [unifyLineEnds.eq_3 c rest hpair] at h
      split_ifs at h with hc
      · exact absurd h (not_prefix_lineFeed hword (List.cons_ne_nil d word))
      · obtain ⟨rfl, hrest⟩ := List.cons_prefix_cons.1 h
        exact List.cons_prefix_cons.2 ⟨rfl, ih (List.not_mem_of_not_mem_cons hword) hrest⟩

/-- a word on one line that stands in a text with its line ends unified stands in the text -/
theorem infix_of_unifyLineEnds {word cs : List Char} (hword : '\n' ∉ word) (h : word <:+: unifyLineEnds cs) :
    word <:+: cs := by
  fun_induction unifyLineEnds cs with
  | case1 => exact h
  | case2 rest ih =>
    rcases List.infix_cons_iff.1 h with hstart | hlater
    · by_cases hne : word = []
      · rw [hne]
        exact List.nil_infix
      · exact absurd hstart (not_prefix_lineFeed hword hne)
    · exact ((ih hlater).trans (List.suffix_cons _ _).isInfix).trans (List.suffix_cons _ _).isInfix
  | case3 c rest hpair ih =>
    rcases List.infix_cons_iff.1 h with hstart | hlater
    · rw [← unifyLineEnds.eq_3 c rest hpair] at hstart
      exact (prefix_of_unifyLineEnds hword hstart).isInfix
    · exact (ih hlater).trans (List.suffix_cons c rest).isInfix

end ClassNaming.Text
