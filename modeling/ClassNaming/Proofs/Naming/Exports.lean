/-
The sources that are exported for other tools, against the classifier.

A tool may search a token for an exported source or match the whole token against it, and it knows nothing of rules or
utilities. On one line both come to the same, and they agree with the rules of the kinds that the source stands for.

- `bem_pattern`, `bemOrState_pattern`: what the two joint sources are read into, one alternative for each grammar.
- `isBemClass_iff`: a token is of the family exactly if one of its four grammars accepts it, a block that is also a
  utility of the catalog apart.
- `exports_agree`: searches, whole matches and the classifier.
-/
import ClassNaming.Proofs.Naming.Precedence
import ClassNaming.Proofs.Pattern.Search
import ClassNaming.Proofs.Pattern.Spelling

namespace ClassNaming

open Pattern

/-! ## What the joint sources are read into -/

/-- what an exported source is read into -/
def exportedPattern? (name : String) : Option Pattern :=
  (exportedSources.lookup name).bind fun source => (Pattern.read source).toOption

def bemParts : List (List Pattern) := [segmentParts, elementParts, nestedElementParts, modifierParts]

def bemOrStateParts : List (List Pattern) := bemParts ++ [stateParts]

def spelledSegment : Spelling segmentSource := .literal

def spelledBlock : Spelling blockSource := (Spelling.literal.append spelledSegment).append .literal

def spelledElement : Spelling elementSource :=
  (((Spelling.literal.append spelledSegment).append .literal).append spelledSegment).append .literal

def spelledNestedElement : Spelling nestedElementSource :=
  (((((Spelling.literal.append spelledSegment).append .literal).append spelledSegment).append .literal).append
    spelledSegment).append .literal

def spelledModifier : Spelling modifierSource :=
  (((((((Spelling.literal.append spelledSegment).append .literal).append spelledSegment).append .literal).append
    spelledSegment).append .literal).append spelledSegment).append .literal

def spelledState : Spelling stateSource := .literal

def bar {a b : String} (x : Spelling a) (y : Spelling b) : Spelling (a ++ "|" ++ b) := (x.append .literal).append y

def spelledBem : Spelling (alternation [blockSource, elementSource, nestedElementSource, modifierSource]) :=
  (Spelling.literal.append (bar (bar (bar spelledBlock spelledElement) spelledNestedElement) spelledModifier)).append
    .literal

def spelledBemOrState :
    Spelling (alternation [blockSource, elementSource, nestedElementSource, modifierSource, stateSource]) :=
  (Spelling.literal.append
    (bar (bar (bar (bar spelledBlock spelledElement) spelledNestedElement) spelledModifier) spelledState)).append
      .literal

theorem lookup_bem : exportedSources.lookup "hcnc" =
    some (alternation [blockSource, elementSource, nestedElementSource, modifierSource]) := by
  simp [exportedSources, List.lookup]

theorem lookup_bemOrState : exportedSources.lookup "hcncWithState" =
    some (alternation [blockSource, elementSource, nestedElementSource, modifierSource, stateSource]) := by
  simp [exportedSources, List.lookup]

theorem bem_pattern : exportedPattern? "hcnc" = some (anchoredAny bemParts) := by
  rw [exportedPattern?, lookup_bem, Option.bind_some, spelledBem.read_eq]
  decide +kernel

theorem bemOrState_pattern : exportedPattern? "hcncWithState" = some (anchoredAny bemOrStateParts) := by
  rw [exportedPattern?, lookup_bemOrState, Option.bind_some, spelledBemOrState.read_eq]
  decide +kernel

theorem isFree_bemParts : ∀ ps ∈ bemParts, ∀ p ∈ ps, p.isFree = true := by decide

theorem isFree_bemOrStateParts : ∀ ps ∈ bemOrStateParts, ∀ p ∈ ps, p.isFree = true := by decide

/-! ## Whole matches -/

theorem fullMatches_bem_iff (t : String) : (anchoredAny bemParts).fullMatches t = true ↔
    isBlock t = true ∨ isElement t = true ∨ isNestedElement t = true ∨ isModifier t = true := by
  rw [fullMatches_anchoredAny (by decide) isFree_bemParts, isBlock, isElement, isNestedElement, isModifier,
    accepts_iff blockGrammar_pattern (by decide), accepts_iff elementGrammar_pattern (by decide),
    accepts_iff nestedElementGrammar_pattern (by decide), accepts_iff modifierGrammar_pattern (by decide)]
  simp [bemParts]

theorem fullMatches_bemOrState_iff (t : String) : (anchoredAny bemOrStateParts).fullMatches t = true ↔
    (anchoredAny bemParts).fullMatches t = true ∨ isState t = true := by
  rw [fullMatches_anchoredAny (by decide) isFree_bemOrStateParts, fullMatches_anchoredAny (by decide) isFree_bemParts,
    isState, accepts_iff stateGrammar_pattern (by decide)]
  simp only [bemOrStateParts, List.mem_append, List.mem_singleton, or_and_right, exists_or, exists_eq_left]

/-! ## The classifier -/

theorem mem_matchRules_iff (rules : Rules) (t : String) (k : Kind) : k ∈ matchRules rules t ↔ k.holds rules t = true := by
  rw [matchRules, List.mem_filter]
  exact and_iff_right (admissible_precedence.mem k)

/-- a kind besides utility is listed exactly if one of the five grammars accepts the token -/
theorem exists_grammar_kind_iff (rules : Rules) (t : String) : (∃ k ∈ matchRules rules t, k ≠ .utility) ↔
    (isBlock t = true ∨ isElement t = true ∨ isNestedElement t = true ∨ isModifier t = true) ∨ isState t = true := by
  simp only [mem_matchRules_iff]
  constructor
  · rintro ⟨k, hold, hk⟩
    cases k with
    | utility => exact absurd rfl hk
    | block => exact Or.inl (Or.inl hold)
    | element => exact Or.inl (Or.inr (Or.inl hold))
    | nestedElement => exact Or.inl (Or.inr (Or.inr (Or.inl hold)))
    | modifier => exact Or.inl (Or.inr (Or.inr (Or.inr hold)))
    | state => exact Or.inr hold
  · rintro ((hold | hold | hold | hold) | hold)
    · exact ⟨.block, hold, by decide⟩
    · exact ⟨.element, hold, by decide⟩
    · exact ⟨.nestedElement, hold, by decide⟩
    · exact ⟨.modifier, hold, by decide⟩
    · exact ⟨.state, hold, by decide⟩

theorem isBemClass_eq {t : String} {k : Option Kind} (h : precedence.find? (Kind.holds .default t) = k) :
    isBemClass t = (k.map Kind.isBem).getD false := by
  rw [isBemClass, classify, classifyBy_eq, h]
  simp [Rules.default]

/-- **The family.** A block is of the family unless it is a utility of the catalog; elements, nested elements and
modifiers always are. -/
theorem isBemClass_iff (t : String) : isBemClass t = true ↔
    (isBlock t = true ∨ isElement t = true ∨ isNestedElement t = true ∨ isModifier t = true) ∧
      ¬ (isBlock t = true ∧ isUtility [] t = true) := by
  by_cases hearly : ∃ k ∈ earlyKinds, k.holds .default t = true
  · obtain ⟨k, hk, hold⟩ := hearly
    -- the other four grammars reject the token
    have hother : ∀ j, j ≠ .utility → j ≠ k → j.holds .default t = false := by
      intro j hj hne
      rw [Bool.eq_false_iff]
      intro h
      exact hne (holds_unique .default t hj (ne_of_early hk).1 h hold)
    have hblock : isBlock t = false := hother .block (by decide) (ne_of_early hk).2.symm
    rw [isBemClass_eq (admissible_precedence.find?_early hk hold)]
    cases k with
    | utility | block => exact absurd hk (by decide)
    | element => simp [Kind.isBem, hblock, show isElement t = true from hold]
    | nestedElement => simp [Kind.isBem, hblock, show isNestedElement t = true from hold]
    | modifier => simp [Kind.isBem, hblock, show isModifier t = true from hold]
    | state =>
      have helement : isElement t = false := hother .element (by decide) (by decide)
      have hnested : isNestedElement t = false := hother .nestedElement (by decide) (by decide)
      have hmodifier : isModifier t = false := hother .modifier (by decide) (by decide)
      simp [Kind.isBem, hblock, helement, hnested, hmodifier]
  · have hnone : ∀ k ∈ earlyKinds, k.holds .default t = false := by
      intro k hk
      rw [Bool.eq_false_iff]
      intro hold
      exact hearly ⟨k, hk, hold⟩
    have helement : isElement t = false := hnone .element (by decide)
    have hnested : isNestedElement t = false := hnone .nestedElement (by decide)
    have hmodifier : isModifier t = false := hnone .modifier (by decide)
    cases hutility : isUtility [] t with
    | true =>
      rw [isBemClass_eq (admissible_precedence.find?_utility hnone hutility)]
      simp [Kind.isBem, helement, hnested, hmodifier]
    | false =>
      rw [isBemClass_eq (admissible_precedence.find?_block hnone hutility)]
      cases hblock : isBlock t <;> simp [Kind.isBem, helement, hnested, hmodifier]

/-- **The exported sources agree with the classifier**, searched for or matched whole. On one line both find the same.
The source with states matches exactly if a kind besides utility is listed, under whatever rules. The source without
matches exactly if one of the four grammars of the family accepts the token, and the token is of the family unless it is
a block and a utility of the catalog too. -/
theorem exports_agree (t : String) (hline : '\n' ∉ t.toList) (rules : Rules) :
    ∃ bem bemOrState, exportedPattern? "hcnc" = some bem ∧ exportedPattern? "hcncWithState" = some bemOrState ∧
      (bemOrState.found t = true ↔ bemOrState.fullMatches t = true) ∧
      (bemOrState.fullMatches t = true ↔ ∃ k ∈ matchRules rules t, k ≠ .utility) ∧
      (bem.found t = true ↔ bem.fullMatches t = true) ∧
      (bem.fullMatches t = true ↔
        isBlock t = true ∨ isElement t = true ∨ isNestedElement t = true ∨ isModifier t = true) ∧
      (isBemClass t = true ↔ bem.fullMatches t = true ∧ ¬ (isBlock t = true ∧ isUtility [] t = true)) := by
  refine ⟨_, _, bem_pattern, bemOrState_pattern, ?_, ?_, ?_, fullMatches_bem_iff t, ?_⟩
  · exact found_iff_fullMatches (by decide) isFree_bemOrStateParts hline
  · rw [fullMatches_bemOrState_iff, fullMatches_bem_iff, exists_grammar_kind_iff]
  · exact found_iff_fullMatches (by decide) isFree_bemParts hline
  · rw [isBemClass_iff, fullMatches_bem_iff]

/-- a modifier under rules that call every token a utility -/
theorem exports_agree_modifier :
    let rules : Rules := ⟨[(".*", .rep (.char ⟨true, [.one 10], false, false⟩) 0 none .greedy)], false, true⟩
    '\n' ∉ "card--big".toList ∧ (∃ k ∈ matchRules rules "card--big", k ≠ .utility) ∧
      ∃ p, exportedPattern? "hcncWithState" = some p ∧ p.found "card--big" = true := by
  intro rules
  have hline : '\n' ∉ "card--big".toList := by simp
  have hmodifier : isModifier "card--big" = true := by
    rw [isModifier, Grammar.accepts, modifierGrammar_pattern]
    decide +kernel
  have hlisted : ∃ k ∈ matchRules rules "card--big", k ≠ .utility :=
    ⟨.modifier, (mem_matchRules_iff rules _ _).2 hmodifier, by decide⟩
  obtain ⟨bem, p, -, hp, hfound, hwhole, -⟩ := exports_agree "card--big" hline rules
  exact ⟨hline, hlisted, p, hp, hfound.2 (hwhole.2 hlisted)⟩

/-- the line matters: a search passes over a last line feed, a whole match does not -/
example : (anchoredAny bemParts).found "card\n" = true ∧ (anchoredAny bemParts).fullMatches "card\n" = false := by
  decide +kernel

end ClassNaming
