/-
Tokens with three underscores in a row.

No name has them: segments have no underscore, and one or two stand between them. The catalog of utilities is another
matter. Where it leaves a part open to word characters or to a whole line, any number of underscores may stand, and such
a token passes.

- `triple_notInfix_name`: no block, element, nested element, modifier or state has three underscores in a row.
- `Name.last_ne_underscore`: and none ends with an underscore.
- `triple_underscore_iff`: so a token with them has a kind exactly if it is a utility of open form.
- `underscores_accepted`: there are such tokens.
-/
import ClassNaming.Naming.Verdict
import ClassNaming.Proofs.Naming.Precedence
import ClassNaming.Proofs.Naming.Utilities

namespace ClassNaming

/-- three underscores in a row -/
def triple : List Char := ['_', '_', '_']

/-! ## Names -/

theorem triple_after {u : List Char} (hu : '_' ∉ u) {w : List Char} (h : triple <:+: u ++ w) : triple <:+: w := by
  induction u with
  | nil => exact h
  | cons c u ih =>
    obtain ⟨hc, hu⟩ : '_' ≠ c ∧ '_' ∉ u := by simpa using hu
    rcases List.infix_cons_iff.1 h with hstart | hlater
    · exact absurd (List.cons_prefix_cons.1 hstart).1 hc
    · exact ih hu hlater

/-- one or two underscores before a segment are not three -/
theorem triple_after_gap (s : Segment) {w : List Char} :
    (triple <:+: '_' :: (s.1 ++ w) → triple <:+: w) ∧ (triple <:+: '_' :: '_' :: (s.1 ++ w) → triple <:+: w) := by
  have hhead : ∀ x, s.1 ++ w ≠ '_' :: x := s.append_ne_cons '_' (by decide) w
  have hstart : ∀ x, ¬ '_' :: x <+: s.1 ++ w := by
    intro x ⟨y, hy⟩
    exact hhead (x ++ y) hy.symm
  have hone : triple <:+: '_' :: (s.1 ++ w) → triple <:+: w := by
    intro h
    rcases List.infix_cons_iff.1 h with h | h
    · exact absurd (List.cons_prefix_cons.1 h).2 (hstart _)
    · exact triple_after s.underscore_notMem h
  refine ⟨hone, ?_⟩
  intro h
  rcases List.infix_cons_iff.1 h with h | h
  · exact absurd (List.cons_prefix_cons.1 (List.cons_prefix_cons.1 h).2).2 (hstart _)
  · exact hone h

theorem triple_after_base (b : Base) {w : List Char} (h : triple <:+: b.text ++ w) : triple <:+: w := by
  cases b with
  | segment s => exact triple_after s.underscore_notMem h
  | element s₁ s₂ =>
    simp only [Base.text, List.append_assoc, List.cons_append, List.nil_append] at h
    exact (triple_after_gap s₂).1 (triple_after s₁.underscore_notMem h)
  | nested s₁ s₂ s₃ =>
    simp only [Base.text, List.append_assoc, List.cons_append, List.nil_append] at h
    exact (triple_after_gap s₃).2 ((triple_after_gap s₂).1 (triple_after s₁.underscore_notMem h))
  | inner s₁ s₂ =>
    simp only [Base.text, List.append_assoc, List.cons_append, List.nil_append] at h
    exact (triple_after_gap s₂).2 (triple_after s₁.underscore_notMem h)

theorem underscore_notMem_state {n : Name} (hn : n.kind = .state) : '_' ∉ n.text := by
  cases n <;> simp only [Name.kind, reduceCtorEq] at hn
  rename_i l c w
  intro h
  simp only [Name.text, List.mem_append, List.mem_singleton] at h
  rcases h with (h | h) | h
  · cases l <;> simp [Lead.text] at h
  · have hc := c.2
    rw [← h] at hc
    exact absurd hc (by decide)
  · exact absurd (w.2 _ h) (by decide)

/-- **No name has three underscores in a row.** -/
theorem triple_notInfix_name (n : Name) : ¬ triple <:+: n.text := by
  have hnil : ¬ triple <:+: [] := by simp [triple]
  intro h
  by_cases hs : n.kind = .state
  · exact underscore_notMem_state hs (h.subset (by simp [triple]))
  by_cases hm : n.kind = .modifier
  · cases n <;> simp only [Name.kind, reduceCtorEq] at hm
    rename_i b s
    simp only [Name.text, List.append_assoc] at h
    have hrest : '_' ∉ ['-', '-'] ++ s.1 := by simpa using s.underscore_notMem
    have hend := triple_after hrest (w := []) (by simpa using triple_after_base b h)
    exact hnil hend
  · obtain ⟨b, hb⟩ := Name.exists_base hs hm
    rw [Name.text_of_base? hb] at h
    exact hnil (triple_after_base b (by simpa using h))

/-- no name ends with an underscore -/
theorem Name.last_ne_underscore (n : Name) : n.text.getLast? ≠ some '_' := by
  have hsegment : ∀ (x : List Char) (s : Segment), (x ++ s.1).getLast? ≠ some '_' := by
    intro x s h
    obtain ⟨c, rest, hs, -⟩ := s.exists_cons
    rw [List.getLast?_append_of_ne_nil _ (by rw [hs]; exact List.cons_ne_nil c rest)] at h
    exact s.underscore_notMem (List.mem_of_getLast? h)
  cases n with
  | block s => exact hsegment [] s
  | element s₁ s₂ => exact hsegment _ s₂
  | nestedElement s₁ s₂ s₃ => exact hsegment _ s₃
  | modifier b s => exact hsegment _ s
  | state l c w => exact fun h => underscore_notMem_state rfl (List.mem_of_getLast? h)

/-! ## Kinds and verdicts -/

/-- no grammar rule holds for a token with three underscores in a row -/
theorem holds_of_triple {t : String} (h : triple <:+: t.toList) (rules : Rules) {k : Kind} (hk : k ≠ .utility) :
    k.holds rules t = false := by
  rw [Bool.eq_false_iff]
  intro hold
  obtain ⟨n, -, htext⟩ := (holds_iff_name rules t k hk).1 hold
  rw [← htext] at h
  exact triple_notInfix_name n h

theorem accepts_of_triple {t : String} (h : triple <:+: t.toList) :
    ∀ g ∈ Library.builtin.grammars, g.accepts t = false := by
  intro g hg
  simp only [Library.builtin, List.mem_cons, List.not_mem_nil, or_false] at hg
  rcases hg with rfl | rfl | rfl | rfl | rfl
  · exact holds_of_triple h .default (k := .block) (by decide)
  · exact holds_of_triple h .default (k := .element) (by decide)
  · exact holds_of_triple h .default (k := .nestedElement) (by decide)
  · exact holds_of_triple h .default (k := .modifier) (by decide)
  · exact holds_of_triple h .default (k := .state) (by decide)

/-- for a token that is no name, what is left is the utility rule -/
theorem classify_of_unnamed {t : String} (h : ∀ n : Name, n.text ≠ t.toList) :
    classify .default t = if isUtility [] t then some .utility else none := by
  have hnone : ∀ k : Kind, k ≠ .utility → k.holds .default t = false := by
    intro k hk
    rw [Bool.eq_false_iff]
    intro hold
    obtain ⟨n, -, htext⟩ := (holds_iff_name .default t k hk).1 hold
    exact h n htext
  have hearly : ∀ k ∈ earlyKinds, k.holds .default t = false := by
    intro k hk
    exact hnone k (ne_of_early hk).1
  rw [classify, classifyBy_eq]
  cases hutility : isUtility [] t with
  | true =>
    rw [admissible_precedence.find?_utility hearly hutility]
    simp [Rules.default]
  | false =>
    have hblock : isBlock t = false := hnone .block (by decide)
    rw [admissible_precedence.find?_block hearly hutility]
    simp [hblock]

theorem classify_of_triple {t : String} (h : triple <:+: t.toList) :
    classify .default t = if isUtility [] t then some .utility else none := by
  refine classify_of_unnamed ?_
  intro n htext
  rw [← htext] at h
  exact triple_notInfix_name n h

theorem isUtility_triple_iff {t : String} (h : triple <:+: t.toList) :
    isUtility [] t = true ↔ OpenForm t.toList := by
  rw [isUtility_catalog_iff]
  exact accepts_underscore_iff (h.subset (by simp [triple]))

theorem classify_triple_iff {t : String} (h : triple <:+: t.toList) :
    classify .default t = some .utility ↔ OpenForm t.toList := by
  rw [← isUtility_triple_iff h, classify_of_triple h]
  simp

theorem valid_triple_iff {t : String} (h : triple <:+: t.toList) :
    (judge .default t).valid = true ↔ OpenForm t.toList := by
  rw [← isUtility_triple_iff h, judge, classify_of_triple h]
  cases isUtility [] t <;> simp [Rules.default]

/-- **Three underscores in a row.** None of the five grammars accepts a token with them. A grammar of the catalog does
exactly if the token is of open form; such a token is a utility and passes, and any other has no kind and fails. -/
theorem triple_underscore_iff (t : String) (h : triple <:+: t.toList) :
    (∀ g ∈ Library.builtin.grammars, g.accepts t = false) ∧
    ((∃ g ∈ Library.builtin.utilities, g.accepts t = true) ↔ OpenForm t.toList) ∧
    (classify .default t = some .utility ↔ OpenForm t.toList) ∧
    (classify .default t = none ↔ ¬ OpenForm t.toList) ∧
    ((judge .default t).valid = true ↔ OpenForm t.toList) := by
  refine ⟨accepts_of_triple h, ?_, classify_triple_iff h, ?_, valid_triple_iff h⟩
  · exact accepts_underscore_iff (h.subset (by simp [triple]))
  · rw [← isUtility_triple_iff h, classify_of_triple h]
    simp

/-- a colour in brackets with three underscores passes -/
theorem triple_underscore_bracketed :
    triple <:+: "bg-[rgb___]".toList ∧ (judge .default "bg-[rgb___]").valid = true := by
  have h : triple <:+: "bg-[rgb___]".toList := ⟨"bg-[rgb".toList, [']'], by simp [triple]⟩
  have hopen : OpenForm "bg-[rgb___]".toList := by
    simpa [triple] using @OpenForm.bracketed "bg-[rgb" triple (by simp) (by simp [triple]) (by simp [triple])
  exact ⟨h, (triple_underscore_iff _ h).2.2.2.2.2 hopen⟩

/-- a name in the catalog's own open place may be underscores only -/
theorem underscores_accepted :
    triple <:+: "from-___".toList ∧ (∃ g ∈ Library.builtin.utilities, g.accepts "from-___" = true) ∧
      classify .default "from-___" = some .utility ∧ (judge .default "from-___").valid = true := by
  have h : triple <:+: "from-___".toList := ⟨"from-".toList, [], by simp [triple]⟩
  have hopen : OpenForm "from-___".toList := by
    simpa [triple] using @OpenForm.named "from-" triple [] (by simp) ⟨by simp [triple], by simp [triple]⟩ (Or.inl rfl)
  exact ⟨h, exists_accepts_of_openForm hopen, (classify_triple_iff h).2 hopen, (valid_triple_iff h).2 hopen⟩

end ClassNaming
