/-
The parts of a class name.

A segment is a run of lower-case letters, digits and single hyphens that starts with a letter and does not end with a
hyphen. Names are put together from segments with `_`, `__` and `--`, or they are states: `is` or `has` with a capital
after it. `Name` is a name taken apart and `Name.text` writes it down.

- `Base.text_injective`: what a modifier stands on can be taken apart in one way only.
- `Name.text_injective`: so can every name, its kind included. Two things separate the kinds: only a modifier has two
  hyphens in a row, and only a state has a capital.
-/
import Mathlib
import ClassNaming.Naming.Kind

namespace ClassNaming

/-! ## Segments -/

/-- no two hyphens stand side by side -/
def HyphensApart (w : List Char) : Prop := w.IsChain fun a b => ¬ (a = '-' ∧ b = '-')

theorem apart_of_notMem {w : List Char} (h : '-' ∉ w) : HyphensApart w := by
  refine List.isChain_iff_forall_rel_of_append_cons_cons.2 ?_
  rintro a b l₁ l₂ rfl ⟨rfl, -⟩
  simp at h

/-- lower-case letters, digits and single hyphens; a letter first, no hyphen last -/
structure IsSegment (w : List Char) : Prop where
  first : ∃ c ∈ w.head?, c.isLower = true
  chars : ∀ c ∈ w, c.isLower = true ∨ c.isDigit = true ∨ c = '-'
  last : w.getLast? ≠ some '-'
  apart : HyphensApart w

/-- the classes of letters and digits are ranges of code points -/
theorem isLower_iff (c : Char) : c.isLower = true ↔ 97 ≤ c.toNat ∧ c.toNat ≤ 122 := by
  simp [Char.isLower, UInt32.le_iff_toNat_le, ← Char.toNat_val]

theorem isUpper_iff (c : Char) : c.isUpper = true ↔ 65 ≤ c.toNat ∧ c.toNat ≤ 90 := by
  simp [Char.isUpper, UInt32.le_iff_toNat_le, ← Char.toNat_val]

theorem isDigit_iff (c : Char) : c.isDigit = true ↔ 48 ≤ c.toNat ∧ c.toNat ≤ 57 := by
  simp [Char.isDigit, UInt32.le_iff_toNat_le, ← Char.toNat_val]

abbrev Segment := { w : List Char // IsSegment w }

/-- a character of a name that is no state -/
def IsNameChar (c : Char) : Prop := c.isLower = true ∨ c.isDigit = true ∨ c = '-' ∨ c = '_'

theorem IsNameChar.not_capital {c : Char} (h : IsNameChar c) : c.isUpper = false := by
  rw [Bool.eq_false_iff, Ne, isUpper_iff]
  rcases h with h | h | rfl | rfl
  · rw [isLower_iff] at h; omega
  · rw [isDigit_iff] at h; omega
  · decide
  · decide

namespace Segment

theorem exists_cons (s : Segment) : ∃ c rest, s.1 = c :: rest ∧ c.isLower = true := by
  obtain ⟨c, hc, hl⟩ := s.2.first
  obtain ⟨rest, hr⟩ := List.head?_eq_some_iff.1 hc
  exact ⟨c, rest, hr, hl⟩

theorem underscore_notMem (s : Segment) : '_' ∉ s.1 := by
  intro h
  have := s.2.chars '_' h
  simp at this

/-- a segment does not start with an underscore or a hyphen, whatever follows it -/
theorem append_ne_cons (s : Segment) (c : Char) (hc : c.isLower = false) (x y : List Char) : s.1 ++ x ≠ c :: y := by
  obtain ⟨d, rest, hs, hd⟩ := s.exists_cons
  rw [hs]
  rintro h
  obtain ⟨rfl, -⟩ : d = c ∧ rest ++ x = y := by simpa using h
  rw [hd] at hc; exact absurd hc (by decide)

/-- a segment ends where an underscore or the text ends -/
theorem append_inj (s t : Segment) (x y : List Char) (hx : ∀ c ∈ x.head?, c = '_') (hy : ∀ c ∈ y.head?, c = '_')
    (h : s.1 ++ x = t.1 ++ y) : s = t ∧ x = y := by
  -- what stands before the first underscore is the segment
  have cut : ∀ (r : Segment) (z : List Char), (∀ c ∈ z.head?, c = '_') → (r.1 ++ z).takeWhile (· != '_') = r.1 := by
    intro r z hz
    rw [List.takeWhile_append_of_pos fun c hc => by
      have : c ≠ '_' := fun e => r.underscore_notMem (e ▸ hc)
      simpa using this]
    cases z with
    | nil => simp
    | cons d z => simp [hz d rfl]
  have hst : s.1 = t.1 := by rw [← cut s x hx, h, cut t y hy]
  refine ⟨Subtype.ext hst, ?_⟩
  rw [hst] at h
  exact List.append_cancel_left h

theorem nameChars (s : Segment) : ∀ c ∈ s.1, IsNameChar c := by
  intro c hc
  rcases s.2.chars c hc with h | h | h
  · exact Or.inl h
  · exact Or.inr (Or.inl h)
  · exact Or.inr (Or.inr (Or.inl h))

end Segment

/-! ## What a modifier stands on -/

/-- what a modifier may stand on -/
inductive Base where
  | segment (s : Segment)
  | element (s₁ s₂ : Segment)
  | nested (s₁ s₂ s₃ : Segment)
  /-- two underscores with no element before them: no name of its own -/
  | inner (s₁ s₂ : Segment)

namespace Base

def text : Base → List Char
  | .segment s => s.1
  | .element s₁ s₂ => s₁.1 ++ ['_'] ++ s₂.1
  | .nested s₁ s₂ s₃ => s₁.1 ++ ['_'] ++ s₂.1 ++ ['_', '_'] ++ s₃.1
  | .inner s₁ s₂ => s₁.1 ++ ['_', '_'] ++ s₂.1

/-- the first segment of a base -/
def root : Base → Segment
  | .segment s | .element s _ | .nested s _ _ | .inner s _ => s

/-- what follows the first segment -/
def tail : Base → List Char
  | .segment _ => []
  | .element _ s₂ => '_' :: s₂.1
  | .nested _ s₂ s₃ => '_' :: (s₂.1 ++ '_' :: '_' :: s₃.1)
  | .inner _ s₂ => '_' :: '_' :: s₂.1

theorem text_eq (b : Base) : b.text = b.root.1 ++ b.tail := by
  cases b <;> simp [text, root, tail]

theorem head_tail (b : Base) : ∀ c ∈ b.tail.head?, c = '_' := by
  cases b <;> simp [tail]

theorem eq_of_root_of_tail (a b : Base) (hr : a.root = b.root) (ht : a.tail = b.tail) : a = b := by
  cases a <;> cases b <;> simp only [root, tail, List.cons.injEq, true_and] at hr ht
  case segment.segment => rw [hr]
  case element.element s₁ s₂ t₁ t₂ => rw [hr, Subtype.ext ht]
  case element.nested s₁ s₂ t₁ t₂ t₃ => exact absurd ht.symm (by
    intro e
    refine s₂.underscore_notMem ?_
    rw [← e]; simp)
  case element.inner s₁ s₂ t₁ t₂ => exact absurd ht (by
    have := s₂.append_ne_cons '_' rfl [] t₂.1
    simpa using this)
  case nested.element s₁ s₂ s₃ t₁ t₂ => exact absurd ht (by
    intro e
    refine t₂.underscore_notMem ?_
    rw [← e]; simp)
  case nested.nested s₁ s₂ s₃ t₁ t₂ t₃ =>
    obtain ⟨h2, h3⟩ := s₂.append_inj t₂ _ _ (by simp) (by simp) ht
    have h3' : s₃ = t₃ := Subtype.ext (by simpa using h3)
    rw [hr, h2, h3']
  case nested.inner s₁ s₂ s₃ t₁ t₂ => exact absurd ht (s₂.append_ne_cons '_' rfl _ _)
  case inner.element s₁ s₂ t₁ t₂ => exact absurd ht.symm (by
    have := t₂.append_ne_cons '_' rfl [] s₂.1
    simpa using this)
  case inner.nested s₁ s₂ t₁ t₂ t₃ => exact absurd ht.symm (t₂.append_ne_cons '_' rfl _ _)
  case inner.inner s₁ s₂ t₁ t₂ => rw [hr, Subtype.ext ht]
  all_goals exact absurd ht (by simp)

/-- **A base can be taken apart in one way only.** -/
theorem text_injective : Function.Injective text := by
  intro a b h
  rw [text_eq, text_eq] at h
  obtain ⟨hr, ht⟩ := a.root.append_inj b.root _ _ a.head_tail b.head_tail h
  exact eq_of_root_of_tail a b hr ht

theorem nameChars (b : Base) : ∀ c ∈ b.text, IsNameChar c := by
  have hone : ∀ c ∈ ['_'], IsNameChar c := by simp [IsNameChar]
  have htwo : ∀ c ∈ ['_', '_'], IsNameChar c := by simp [IsNameChar]
  cases b with
  | segment s => exact s.nameChars
  | element s₁ s₂ =>
    simp only [text, List.forall_mem_append]
    exact ⟨⟨s₁.nameChars, hone⟩, s₂.nameChars⟩
  | nested s₁ s₂ s₃ =>
    simp only [text, List.forall_mem_append]
    exact ⟨⟨⟨⟨s₁.nameChars, hone⟩, s₂.nameChars⟩, htwo⟩, s₃.nameChars⟩
  | inner s₁ s₂ =>
    simp only [text, List.forall_mem_append]
    exact ⟨⟨s₁.nameChars, htwo⟩, s₂.nameChars⟩

/-- a segment after an underscore keeps hyphens apart and does not end with one -/
theorem apart_append {x : List Char} (hx : HyphensApart x) (s : Segment) :
    HyphensApart (x ++ '_' :: s.1) ∧ (x ++ '_' :: s.1).getLast? ≠ some '-' := by
  obtain ⟨c, rest, hs, -⟩ := s.exists_cons
  have happ : HyphensApart ('_' :: s.1) := by
    unfold HyphensApart
    rw [hs, List.isChain_cons_cons, ← hs]
    exact ⟨by simp, s.2.apart⟩
  refine ⟨List.isChain_append.2 ⟨hx, happ, by simp⟩, ?_⟩
  have hlast := s.2.last
  rw [hs] at hlast ⊢
  simpa [List.getLast?_append] using hlast

/-- hyphens stand apart in a base, and none ends it -/
theorem apart_and_last (b : Base) : HyphensApart b.text ∧ b.text.getLast? ≠ some '-' := by
  have under : ∀ {x : List Char}, HyphensApart x → HyphensApart (x ++ ['_']) := by
    intro x hx
    exact List.isChain_append.2 ⟨hx, List.isChain_singleton _, by simp⟩
  cases b with
  | segment s => exact ⟨s.2.apart, s.2.last⟩
  | element s₁ s₂ => simpa [text] using apart_append s₁.2.apart s₂
  | nested s₁ s₂ s₃ => simpa [text] using apart_append (under (apart_append s₁.2.apart s₂).1) s₃
  | inner s₁ s₂ => simpa [text] using apart_append (under s₁.2.apart) s₂

/-- what a base ends with is not the start of two hyphens and more -/
theorem nil_of_hyphens (b : Base) (u z x y : List Char) (hb : b.text = u ++ z)
    (hz : '-' :: '-' :: x = z ++ '-' :: '-' :: y) : z = [] := by
  obtain ⟨hapart, hlast⟩ := b.apart_and_last
  match z, hz with
  | [], _ => rfl
  | [c], hz =>
    obtain ⟨rfl, -⟩ : '-' = c ∧ '-' :: x = '-' :: '-' :: y := by simpa using hz
    exact absurd (by simp [hb]) hlast
  | c :: d :: z, hz =>
    obtain ⟨rfl, rfl, -⟩ : '-' = c ∧ '-' = d ∧ x = z ++ '-' :: '-' :: y := by simpa using hz
    rw [hb] at hapart
    exact absurd hapart (by simp [HyphensApart])

/-- the first two hyphens in a row end the base -/
theorem append_hyphens_inj (a b : Base) (x y : List Char) (h : a.text ++ '-' :: '-' :: x = b.text ++ '-' :: '-' :: y) :
    a = b ∧ x = y := by
  -- neither base can be longer than the other
  have ht : a.text = b.text := by
    rcases List.append_eq_append_iff.1 h with ⟨z, hb, hz⟩ | ⟨z, ha, hz⟩
    · rw [hb, b.nil_of_hyphens _ z x y hb hz, List.append_nil]
    · rw [ha, a.nil_of_hyphens _ z y x ha hz, List.append_nil]
  refine ⟨text_injective ht, ?_⟩
  rw [ht] at h
  simpa using List.append_cancel_left h

end Base

/-! ## Names -/

/-- the word a state starts with -/
inductive Lead where
  | is
  | has
deriving DecidableEq, Repr

def Lead.text : Lead → List Char
  | .is => ['i', 's']
  | .has => ['h', 'a', 's']

abbrev Capital := { c : Char // c.isUpper = true }

/-- ASCII letters and digits -/
abbrev Alphanumeric := { w : List Char // ∀ c ∈ w, c.isAlphanum = true }

/-- a class name taken apart -/
inductive Name where
  | block (s : Segment)
  | element (s₁ s₂ : Segment)
  | nestedElement (s₁ s₂ s₃ : Segment)
  | modifier (base : Base) (s : Segment)
  | state (lead : Lead) (capital : Capital) (rest : Alphanumeric)

namespace Name

def text : Name → List Char
  | .block s => s.1
  | .element s₁ s₂ => s₁.1 ++ ['_'] ++ s₂.1
  | .nestedElement s₁ s₂ s₃ => s₁.1 ++ ['_'] ++ s₂.1 ++ ['_', '_'] ++ s₃.1
  | .modifier base s => base.text ++ ['-', '-'] ++ s.1
  | .state lead capital rest => lead.text ++ [capital.1] ++ rest.1

def kind : Name → Kind
  | .block _ => .block
  | .element _ _ => .element
  | .nestedElement _ _ _ => .nestedElement
  | .modifier _ _ => .modifier
  | .state _ _ _ => .state

/-- the base that a name is when it is neither a modifier nor a state -/
def base? : Name → Option Base
  | .block s => some (.segment s)
  | .element s₁ s₂ => some (.element s₁ s₂)
  | .nestedElement s₁ s₂ s₃ => some (.nested s₁ s₂ s₃)
  | .modifier _ _ | .state _ _ _ => none

theorem text_of_base? {n : Name} {b : Base} (h : n.base? = some b) : n.text = b.text := by
  cases n <;> simp only [base?, Option.some.injEq, reduceCtorEq] at h <;> subst h <;> rfl

theorem base?_inj {m n : Name} {b : Base} (hm : m.base? = some b) (hn : n.base? = some b) : m = n := by
  cases m <;> simp only [base?, Option.some.injEq, reduceCtorEq] at hm <;> subst hm <;> cases n <;>
    simp only [base?, Option.some.injEq, reduceCtorEq, Base.segment.injEq, Base.element.injEq, Base.nested.injEq] at hn
  case block.block => rw [hn]
  case element.element => rw [hn.1, hn.2]
  case nestedElement.nestedElement => rw [hn.1, hn.2.1, hn.2.2]

theorem exists_base {n : Name} (hs : n.kind ≠ .state) (hm : n.kind ≠ .modifier) : ∃ b, n.base? = some b := by
  cases n <;> simp_all [kind, base?]

theorem nameChars {n : Name} (hs : n.kind ≠ .state) : ∀ c ∈ n.text, IsNameChar c := by
  by_cases hm : n.kind = .modifier
  · cases n <;> simp only [kind, reduceCtorEq] at hm
    rename_i b s
    simp only [text, List.forall_mem_append]
    exact ⟨⟨b.nameChars, by simp [IsNameChar]⟩, s.nameChars⟩
  · obtain ⟨b, hb⟩ := exists_base hs hm
    rw [text_of_base? hb]
    exact b.nameChars

/-- a state has a capital, and no other name has one -/
theorem capital_iff (n : Name) : (∃ c ∈ n.text, c.isUpper = true) ↔ n.kind = .state := by
  by_cases hs : n.kind = .state
  · cases n <;> simp only [kind, reduceCtorEq] at hs
    rename_i l c w
    exact iff_of_true ⟨c.1, by simp [text], c.2⟩ rfl
  · refine iff_of_false ?_ hs
    rintro ⟨c, hc, hu⟩
    rw [(nameChars hs c hc).not_capital] at hu
    exact absurd hu (by decide)

/-- a name is one line -/
theorem lineFeed_notMem (n : Name) : '\n' ∉ n.text := by
  intro h
  by_cases hs : n.kind = .state
  · cases n <;> simp only [kind, reduceCtorEq] at hs
    rename_i l c w
    simp only [text, List.mem_append, List.mem_singleton] at h
    rcases h with (h | h) | h
    · cases l <;> simp [Lead.text] at h
    · have := c.2; rw [← h] at this; exact absurd this (by decide)
    · exact absurd (w.2 _ h) (by decide)
  · exact absurd (nameChars hs _ h) (by unfold IsNameChar; decide)

/-- among the names that are no states, modifiers are those with two hyphens in a row -/
theorem apart_iff {n : Name} (hs : n.kind ≠ .state) : HyphensApart n.text ↔ n.kind ≠ .modifier := by
  by_cases hm : n.kind = .modifier
  · cases n <;> simp only [kind, reduceCtorEq] at hm
    simp [text, kind, HyphensApart]
  · obtain ⟨b, hb⟩ := exists_base hs hm
    rw [text_of_base? hb]
    exact iff_of_true b.apart_and_last.1 hm

theorem state_text_inj {l l' : Lead} {c c' : Capital} {w w' : Alphanumeric}
    (h : (Name.state l c w).text = (Name.state l' c' w').text) : Name.state l c w = Name.state l' c' w' := by
  obtain rfl : l = l' := by
    cases l <;> cases l' <;> simp [text, Lead.text] at h ⊢
  obtain ⟨hc, hw⟩ : c.1 = c'.1 ∧ w.1 = w'.1 := by simpa [text] using h
  rw [Subtype.ext hc, Subtype.ext hw]

theorem modifier_text_inj {b b' : Base} {s s' : Segment} (h : (Name.modifier b s).text = (Name.modifier b' s').text) :
    Name.modifier b s = Name.modifier b' s' := by
  obtain ⟨rfl, hs⟩ := Base.append_hyphens_inj b b' s.1 s'.1 (by simpa [text] using h)
  rw [Subtype.ext hs]

/-- **A name can be taken apart in one way only**, so no text is a name of two kinds. -/
theorem text_injective : Function.Injective text := by
  intro m n h
  have hstate : m.kind = .state ↔ n.kind = .state := by rw [← capital_iff, ← capital_iff, h]
  by_cases hs : m.kind = .state
  · have hs' := hstate.1 hs
    cases m <;> simp only [kind, reduceCtorEq] at hs
    cases n <;> simp only [kind, reduceCtorEq] at hs'
    exact state_text_inj h
  · have hs' : n.kind ≠ .state := fun e => hs (hstate.2 e)
    have hmod : m.kind ≠ .modifier ↔ n.kind ≠ .modifier := by rw [← apart_iff hs, ← apart_iff hs', h]
    by_cases hm : m.kind = .modifier
    · have hm' : n.kind = .modifier := by
        by_contra hne
        exact hmod.2 hne hm
      cases m <;> simp only [kind, reduceCtorEq] at hm
      cases n <;> simp only [kind, reduceCtorEq] at hm'
      exact modifier_text_inj h
    · obtain ⟨a, ha⟩ := exists_base hs hm
      obtain ⟨b, hb⟩ := exists_base hs' (hmod.1 hm)
      rw [text_of_base? ha, text_of_base? hb] at h
      rw [Base.text_injective h] at ha
      exact base?_inj ha hb

end Name

end ClassNaming
