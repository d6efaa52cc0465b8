/-
The utility catalog beside states and modifiers.

No utility of the catalog is a state or a modifier. Two marks tell them apart. A state has a capital and no hyphen,
and every source of the catalog that lets a capital pass spells out a hyphen. A modifier has two hyphens in a row and
no bracket, and every source of the catalog keeps hyphens apart or spells out a bracket.

- `not_fullMatches_state`, `not_fullMatches_modifier`: a pattern with the mark matches none of them.
- `accepts_state_or_modifier`: so no utility of the catalog accepts one.
- `matchRules_alone`: a grammar rule is the only one that holds for a token that is no utility.
- `states_and_modifiers_alone`: under the default rules a state is listed as a state only, and a modifier as a modifier
  only.
-/
import ClassNaming.Proofs.Naming.Precedence
import ClassNaming.Proofs.Naming.Utilities
import ClassNaming.Proofs.Pattern.Edges

namespace ClassNaming

open Pattern

/-! ## Marks of names -/

namespace Name

theorem hyphen_notMem_of_state {n : Name} (hn : n.kind = .state) : '-' ∉ n.text := by
  cases n <;> simp only [kind, reduceCtorEq] at hn
  rename_i lead capital rest
  have hlead : '-' ∉ lead.text := by cases lead <;> decide
  have hcapital : '-' ≠ capital.1 := by
    rintro h
    exact absurd capital.2 (by rw [← h]; decide)
  have hrest : '-' ∉ rest.1 := fun h => absurd (rest.2 _ h) (by decide)
  simp [text, hlead, hcapital, hrest]

theorem bracket_notMem {n : Name} (hn : n.kind ≠ .state) : '[' ∉ n.text := fun h =>
  absurd (nameChars hn _ h) (by unfold IsNameChar; decide)

end Name

/-! ## One against the other -/

/-- no state is a whole match of a pattern that takes none -/
theorem not_fullMatches_state {p : Pattern} (hplain : p.isPlain = true) (hp : lowers p = true) {n : Name}
    (hn : n.kind = .state) {t : String} (ht : n.text = t.toList) : p.fullMatches t = false := by
  rw [Bool.eq_false_iff]
  intro hmatch
  rcases Bool.or_eq_true _ _ |>.mp hp with hneeds | hmisses
  · refine n.hyphen_notMem_of_state hn ?_
    rw [ht]
    exact mem_of_fullMatches hplain hneeds hmatch
  · obtain ⟨c, hc, hupper⟩ := n.capital_iff.2 hn
    rw [ht] at hc
    exact outside_of_takes hmisses [] t.toList [] ((fullMatches_iff p hplain t).1 hmatch) c hc ((isUpper_iff c).1 hupper)

/-- no modifier is a whole match of a pattern that takes none -/
theorem not_fullMatches_modifier {p : Pattern} (hplain : p.isPlain = true) (hp : separates p = true) {n : Name}
    (hn : n.kind = .modifier) {t : String} (ht : n.text = t.toList) : p.fullMatches t = false := by
  have hstate : n.kind ≠ .state := by rw [hn]; decide
  rw [Bool.eq_false_iff]
  intro hmatch
  rcases Bool.or_eq_true _ _ |>.mp hp with hneeds | hapart
  · refine n.bracket_notMem hstate ?_
    rw [ht]
    exact mem_of_fullMatches hplain hneeds hmatch
  · refine (n.apart_iff hstate).1 ?_ hn
    rw [ht]
    exact apart_of_fullMatches hplain hapart hmatch

/-- no utility of the catalog is a state or a modifier -/
theorem accepts_state_or_modifier {t : String} (h : isState t = true ∨ isModifier t = true) :
    ∀ g ∈ utilityGrammars, g.accepts t = false := by
  intro g hg
  obtain ⟨hplain, hlowers, hseparates⟩ := guarded_catalog g.pattern (List.mem_map_of_mem hg)
  rcases h with h | h
  · obtain ⟨n, hn, ht⟩ := (holds_iff_name .default t .state (by decide)).1 h
    exact not_fullMatches_state hplain hlowers hn ht
  · obtain ⟨n, hn, ht⟩ := (holds_iff_name .default t .modifier (by decide)).1 h
    exact not_fullMatches_modifier hplain hseparates hn ht

/-! ## Listed rules -/

/-- a grammar rule is the only one that holds for a token that is no utility -/
theorem matchRules_alone {rules : Rules} {t : String} {k : Kind} (hk : k ≠ .utility) (hold : k.holds rules t = true)
    (hutility : Kind.utility.holds rules t = false) : matchRules rules t = [k] := by
  have hall : ∀ j, j.holds rules t = decide (j = k) := by
    intro j
    by_cases hjk : j = k
    · simpa [hjk] using hold
    · simp only [hjk, decide_false, Bool.eq_false_iff]
      intro hj
      by_cases hju : j = .utility
      · rw [hju, hutility] at hj
        cases hj
      · exact hjk (holds_unique rules t hju hk hj hold)
  rw [matchRules, funext hall]
  cases k <;> rfl

/-- **The catalog never overlaps states or modifiers.** No utility of the catalog accepts a token that is a state or a
modifier. Under the default rules a state is therefore listed as a state only, and a modifier as a modifier only. -/
theorem states_and_modifiers_alone (t : String) (h : isState t = true ∨ isModifier t = true) :
    (∀ g ∈ utilityGrammars, g.accepts t = false) ∧
    (isState t = true → matchRules .default t = [.state]) ∧
    (isModifier t = true → matchRules .default t = [.modifier]) := by
  have hnone := accepts_state_or_modifier h
  have hutility : Kind.utility.holds .default t = false := by
    rw [Kind.holds, Bool.eq_false_iff]
    intro hcatalog
    obtain ⟨g, hg, haccepts⟩ := (isUtility_catalog_iff t).1 hcatalog
    rw [hnone g hg] at haccepts
    cases haccepts
  exact ⟨hnone, fun hs => matchRules_alone (by decide) hs hutility, fun hm => matchRules_alone (by decide) hm hutility⟩

/-- a modifier that starts like a utility of the catalog -/
theorem states_and_modifiers_alone_text : isModifier "text-sm--lg" = true ∧
    matchRules .default "text-sm--lg" = [.modifier] := by
  have h : isModifier "text-sm--lg" = true := by
    rw [isModifier, Grammar.accepts, modifierGrammar_pattern]
    decide +kernel
  exact ⟨h, (states_and_modifiers_alone "text-sm--lg" (.inr h)).2.2 h⟩

end ClassNaming
