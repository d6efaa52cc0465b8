/-
What extra utilities do to the kind of a token.

Rules are built by reading every source of an extra utility, so the patterns say nothing that the sources do not. The
kind of a token depends on the extra utilities only through whether one of them takes the token: not on their order, nor
on how often a source is given.

- `built_iff`: the rules that can be built are those with sources that are not empty and the patterns they are read into.
- `Built.isUtility_iff`: under such rules a utility is one of the catalog or one that a source takes.
- `classify_congr`: rules that agree on whether a token is a utility, and on strictness, give it the same kind.
- `classify_more_utilities`: more sources leave states, modifiers, elements and utilities alone, and make a utility of
  every other token that an added one takes.
-/
import ClassNaming.Proofs.Fault
import ClassNaming.Proofs.Naming.Precedence
import ClassNaming.Proofs.Naming.Utilities

namespace ClassNaming

/-! ## Reading sources -/

/-- a source that is not empty, with the pattern it is read into -/
structure IsReading (u : String × Pattern) : Prop where
  notEmpty : u.1.isEmpty = false
  reads : Pattern.read u.1 = .ok u.2

theorem isReading_of_readUtility {index : Nat} {v : Value} {u : String × Pattern} (h : readUtility index v = .ok u) :
    v = .text u.1 ∧ IsReading u := by
  unfold readUtility at h
  split at h
  · split_ifs at h with hempty
    split at h
    · rename_i hread
      cases h
      exact ⟨rfl, by simpa using hempty, hread⟩
    · split at h <;> cases h
  · cases h

theorem isReading_of_readUtilities {index : Nat} {vs : List Value} {extra : List (String × Pattern)}
    (h : readUtilities index vs = .ok extra) : ∀ u ∈ extra, IsReading u := by
  induction vs generalizing index extra with
  | nil =>
    cases h
    simp
  | cons v vs ih =>
    obtain ⟨first, hfirst, h⟩ := bind_eq_ok h
    obtain ⟨rest, hrest, h⟩ := bind_eq_ok h
    cases h
    exact List.forall_mem_cons.2 ⟨(isReading_of_readUtility hfirst).2, ih hrest⟩

/-- the sources of readings are read into them -/
theorem readUtilities_sources {extra : List (String × Pattern)} (h : ∀ u ∈ extra, IsReading u) (index : Nat) :
    readUtilities index (extra.map fun u => .text u.1) = .ok extra := by
  induction extra generalizing index with
  | nil => rfl
  | cons u extra ih =>
    obtain ⟨hu, hextra⟩ := List.forall_mem_cons.1 h
    have hfirst : readUtility index (.text u.1) = .ok u := by simp [readUtility, hu.notEmpty, hu.reads]
    simp [readUtilities, hfirst, ih hextra, bind, Except.bind, pure, Except.pure]

/-! ## Rules that can be built -/

namespace Rules

/-- rules that come out of a call with some parts -/
def Built (r : Rules) : Prop := ∃ utilities allowUnknown strictBem, ofParts utilities allowUnknown strictBem = .ok r

theorem extra_of_ofParts {utilities : Value} {allowUnknown strictBem : Bool} {r : Rules}
    (h : ofParts utilities allowUnknown strictBem = .ok r) : ∃ vs, readUtilities 0 vs = .ok r.extra := by
  unfold ofParts at h
  split at h
  · cases h
  · obtain ⟨vs, -, h⟩ := bind_eq_ok h
    obtain ⟨extra, hextra, h⟩ := bind_eq_ok h
    cases h
    exact ⟨vs, hextra⟩

/-- **The rules that can be built** are those whose patterns are what their sources are read into. -/
theorem built_iff (r : Rules) : r.Built ↔ ∀ u ∈ r.extra, IsReading u := by
  constructor
  · rintro ⟨utilities, allowUnknown, strictBem, h⟩
    obtain ⟨vs, hvs⟩ := extra_of_ofParts h
    exact isReading_of_readUtilities hvs
  · intro h
    refine ⟨.list (r.extra.map fun u => .text u.1), r.allowUnknown, r.strictBem, ?_⟩
    simp [ofParts, Value.items, readUtilities_sources h, bind, Except.bind, pure, Except.pure]

theorem built_default : default.Built := (built_iff _).2 (by simp [default])

/-- rules from a mapping could be built from their parts -/
theorem built_ofFields {data : Value} {r : Rules} (h : ofFields data = .ok r) : r.Built := by
  obtain ⟨entries, -, h⟩ := bind_eq_ok h
  have hsources : ∃ sources, readUtilities 0 sources = .ok r.extra := by
    have hflags : ∀ sources, (do
        let allowUnknown ← flag entries "allow_unknown"
        let strictBem ← flag entries "strict_bem"
        return (⟨← readUtilities 0 sources, allowUnknown, strictBem⟩ : Rules)) = .ok r →
        ∃ sources, readUtilities 0 sources = .ok r.extra := by
      intro sources h
      obtain ⟨allowUnknown, -, h⟩ := bind_eq_ok h
      obtain ⟨strictBem, -, h⟩ := bind_eq_ok h
      obtain ⟨extra, hextra, h⟩ := bind_eq_ok h
      cases h
      exact ⟨sources, hextra⟩
    dsimp only at h
    split at h
    · exact hflags _ h
    · obtain ⟨sources, -, h⟩ := bind_eq_ok h
      exact hflags sources h
  obtain ⟨sources, hsources⟩ := hsources
  exact (built_iff r).2 (isReading_of_readUtilities hsources)

/-- the source is read into a pattern that takes the whole token -/
def SourceTakes (source t : String) : Prop := ∃ p, Pattern.read source = .ok p ∧ p.fullMatches t = true

/-- **Utilities under rules that can be built:** those of the catalog, and those that one of the sources takes. -/
theorem Built.isUtility_iff {r : Rules} (h : r.Built) (t : String) :
    isUtility r.compiled t = true ↔ isUtility [] t = true ∨ ∃ s ∈ r.utilities, SourceTakes s t := by
  have hreading := (built_iff r).1 h
  have hextra : (∃ p ∈ r.compiled, p.fullMatches t = true) ↔ ∃ s ∈ r.utilities, SourceTakes s t := by
    constructor
    · rintro ⟨p, hp, ht⟩
      obtain ⟨u, hu, rfl⟩ := List.mem_map.1 hp
      exact ⟨u.1, List.mem_map_of_mem hu, u.2, (hreading u hu).reads, ht⟩
    · rintro ⟨s, hs, p, hread, ht⟩
      obtain ⟨u, hu, rfl⟩ := List.mem_map.1 hs
      obtain rfl : u.2 = p := Except.ok.inj ((hreading u hu).reads.symm.trans hread)
      exact ⟨u.2, List.mem_map_of_mem hu, ht⟩
  rw [← hextra]
  simp [isUtility, Library.isUtility]

/-- a source that only the second rules have takes the token -/
def AddedTakes (c c' : Rules) (t : String) : Prop := ∃ s ∈ c'.utilities, s ∉ c.utilities ∧ SourceTakes s t

theorem isUtility_more {c c' : Rules} (h : c.Built) (h' : c'.Built) (hmore : ∀ s ∈ c.utilities, s ∈ c'.utilities)
    (t : String) : isUtility c'.compiled t = true ↔ isUtility c.compiled t = true ∨ AddedTakes c c' t := by
  rw [h.isUtility_iff, h'.isUtility_iff, or_assoc]
  apply or_congr_right
  constructor
  · rintro ⟨s, hs, ht⟩
    by_cases hold : s ∈ c.utilities
    · exact Or.inl ⟨s, hold, ht⟩
    · exact Or.inr ⟨s, hs, hold, ht⟩
  · rintro (⟨s, hs, ht⟩ | ⟨s, hs, -, ht⟩)
    · exact ⟨s, hmore s hs, ht⟩
    · exact ⟨s, hs, ht⟩

end Rules

/-! ## The kind of a token -/

/-- rules other than the utility rule are the same under all rules in force -/
theorem holds_congr (r r' : Rules) (t : String) {k : Kind} (hk : k ≠ .utility) : k.holds r t = k.holds r' t := by
  cases k <;> first | rfl | exact absurd rfl hk

/-- **What the kind depends on:** whether the token is a utility, and strictness. -/
theorem classify_congr {r r' : Rules} {t : String} (hstrict : r.strictBem = r'.strictBem)
    (hutility : isUtility r.compiled t = isUtility r'.compiled t) : classify r t = classify r' t := by
  have hholds : Kind.holds r t = Kind.holds r' t := by
    funext k
    by_cases hk : k = .utility
    · subst hk
      exact hutility
    · exact holds_congr r r' t hk
  rw [classify, classify, classifyBy_eq, classifyBy_eq, hholds, hstrict]

theorem classify_of_early {r : Rules} {t : String} {k : Kind} (hk : k ∈ earlyKinds) (hold : k.holds r t = true) :
    classify r t = some k := by
  rw [classify, classifyBy_eq, admissible_precedence.find?_early hk hold]
  exact if_neg fun h => (ne_of_early hk).1 (Option.some.inj h.1)

theorem holds_of_classify {r : Rules} {t : String} {k : Kind} (h : classify r t = some k) : k.holds r t = true := by
  rw [classify, classifyBy_eq] at h
  split_ifs at h
  exact List.find?_some h

/-- a utility without an earlier kind -/
theorem classify_of_utility {r : Rules} {t : String} (hearly : ∀ k ∈ earlyKinds, k.holds r t = false)
    (hutility : isUtility r.compiled t = true) : classify r t = if r.strictBem then none else some .utility := by
  rw [classify, classifyBy_eq, admissible_precedence.find?_utility hearly hutility]
  simp

/-- **More utilities.** Let every source of some rules be one of other rules that are as strict. A token that is a state,
a modifier, a nested element or an element stays what it is, and so does a utility. Any other token keeps its kind if no
added source takes it, and if one does it becomes a utility, which under strict rules has no kind. So rules with the same
sources give every token the same kind. -/
theorem classify_more_utilities (c c' : Rules) (t : String) (h : c.Built) (h' : c'.Built)
    (hstrict : c.strictBem = c'.strictBem) (hmore : ∀ s ∈ c.utilities, s ∈ c'.utilities) :
    (∀ k ∈ earlyKinds, classify c t = some k → classify c' t = some k) ∧
    (isUtility c.compiled t = true → classify c' t = classify c t) ∧
    ((∀ k ∈ earlyKinds, classify c t ≠ some k) → isUtility c.compiled t = false →
      (¬ c.AddedTakes c' t → classify c' t = classify c t) ∧
      (c.AddedTakes c' t → classify c' t = if c.strictBem then none else some .utility)) ∧
    ((∀ s ∈ c'.utilities, s ∈ c.utilities) → classify c' t = classify c t) := by
  have hiff := Rules.isUtility_more h h' hmore t
  have hkeep (hsame : isUtility c'.compiled t = true ↔ isUtility c.compiled t = true) : classify c' t = classify c t :=
    classify_congr hstrict.symm (Bool.eq_iff_iff.2 hsame)
  refine ⟨?_, ?_, ?_, ?_⟩
  · intro k hk hkind
    exact classify_of_early hk (holds_congr c c' t (ne_of_early hk).1 ▸ holds_of_classify hkind)
  · intro hutility
    exact hkeep (by simp [hiff, hutility])
  · intro hlate hutility
    refine ⟨fun hnone => hkeep (by simp [hiff, hnone]), fun hadded => ?_⟩
    have hearly : ∀ k ∈ earlyKinds, k.holds c' t = false := by
      intro k hk
      rw [← holds_congr c c' t (ne_of_early hk).1, Bool.eq_false_iff]
      exact fun hold => hlate k hk (classify_of_early hk hold)
    rw [classify_of_utility hearly (hiff.2 (Or.inr hadded)), hstrict]
  · intro hless
    have hnone : ¬ c.AddedTakes c' t := fun ⟨s, hs, hnew, _⟩ => hnew (hless s hs)
    exact hkeep (by simp [hiff, hnone])

/-! ## A source for names that start with an underscore -/

/-- what `_[a-z]+` is read into -/
def underscorePattern : Pattern :=
  .seq (.ofChar '_') (.rep (.char ⟨false, [.range 97 122], false, false⟩) 1 none .greedy)

/-- the default rules with a source for names that start with an underscore -/
def underscoreRules : Rules := ⟨[("_[a-z]+", underscorePattern)], false, false⟩

/-- a name starts with a lower-case letter -/
theorem Name.text_ne_cons (n : Name) {c : Char} (hc : c.isLower = false) (w : List Char) : n.text ≠ c :: w := by
  cases n with
  | block s => simpa [text] using s.append_ne_cons c hc [] w
  | element s₁ s₂ => simpa [text] using s₁.append_ne_cons c hc _ w
  | nestedElement s₁ s₂ s₃ => simpa [text] using s₁.append_ne_cons c hc _ w
  | modifier b s => simpa [text, Base.text_eq] using b.root.append_ne_cons c hc _ w
  | state l capital rest =>
    intro h
    cases l <;> simp only [text, Lead.text, List.cons_append, List.cons.injEq] at h <;> simp [← h.1] at hc

/-- the letters that open utilities start with -/
theorem OpenForm.head_mem {w : List Char} (h : OpenForm w) :
    ∀ c ∈ w.head?, c ∈ ['f', 'v', 't', 'a', 'c', 's', 'm', 'b', 'r'] := by
  cases h with
  | named hlead | blended hlead | bracketed hlead => fin_cases hlead <;> simp

theorem OpenForm.head_ne {w : List Char} (h : OpenForm w) : w.head? ≠ some '_' := by
  intro hhead
  exact absurd (h.head_mem '_' hhead) (by decide)

/-- a token that was nothing becomes a utility -/
theorem classify_more_utilities_underscore :
    Rules.default.Built ∧ underscoreRules.Built ∧ (∀ s ∈ Rules.default.utilities, s ∈ underscoreRules.utilities) ∧
      classify .default "_gap" = none ∧ classify underscoreRules "_gap" = some .utility := by
  have hreads : Pattern.read "_[a-z]+" = .ok underscorePattern := by decide +kernel
  have hbuilt : underscoreRules.Built := (Rules.built_iff _).2 (List.forall_mem_singleton.2 ⟨by decide, hreads⟩)
  have hmore : ∀ s ∈ Rules.default.utilities, s ∈ underscoreRules.utilities := by simp [Rules.default, Rules.utilities]
  have htakes : Rules.default.AddedTakes underscoreRules "_gap" :=
    ⟨"_[a-z]+", by simp [underscoreRules, Rules.utilities], by simp [Rules.default, Rules.utilities],
      underscorePattern, hreads, by decide +kernel⟩
  have hnames : ∀ k : Kind, k ≠ .utility → k.holds .default "_gap" = false := by
    intro k hk
    rw [Bool.eq_false_iff]
    intro hold
    obtain ⟨n, -, hn⟩ := (holds_iff_name _ _ k hk).1 hold
    exact n.text_ne_cons (by decide) _ hn
  have hutility : isUtility Rules.default.compiled "_gap" = false := by
    rw [Bool.eq_false_iff]
    intro h
    have hopen := (accepts_underscore_iff (by decide)).1 ((isUtility_catalog_iff _).1 h)
    exact hopen.head_ne (by decide)
  have hnone : classify .default "_gap" = none := by
    have hblock : isBlock "_gap" = false := hnames .block (by decide)
    rw [classify, classifyBy_eq,
      admissible_precedence.find?_block (fun k hk => hnames k (ne_of_early hk).1) hutility]
    simp [hblock]
  refine ⟨Rules.built_default, hbuilt, hmore, hnone, ?_⟩
  exact ((classify_more_utilities .default underscoreRules "_gap" Rules.built_default hbuilt rfl hmore).2.2.1
    (by simp [hnone]) hutility).2 htakes

end ClassNaming
