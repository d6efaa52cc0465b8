/-
The order of the rules.

The five grammar rules never hold together, so only the place of the utility rule among them matters.

- `holds_unique`: at most one rule other than the utility rule holds for a token.
- `find?_admissible`: every order of the rules that keeps the utility rule after states, modifiers and elements and
  before blocks finds the same first rule.
- `rules_never_compete`: at most one grammar kind is listed, the kind of a token is the same under every admissible
  order, and it is the first of the listed kinds, except that a utility has none under strict rules.
-/
import ClassNaming.Proofs.Naming.Grammars

namespace ClassNaming

/-- the kinds whose rules stand before the utility rule -/
def earlyKinds : List Kind := [.state, .modifier, .nestedElement, .element]

/-- an order of the six rules with the utility rule after states, modifiers, nested elements and elements, and before
blocks -/
structure Admissible (order : List Kind) : Prop where
  perm : order.Perm precedence
  after : ∀ k ∈ earlyKinds, order.idxOf k < order.idxOf .utility
  before : order.idxOf .utility < order.idxOf .block

theorem admissible_precedence : Admissible precedence := ⟨.refl _, by decide, by decide⟩

theorem Admissible.mem {order : List Kind} (h : Admissible order) (k : Kind) : k ∈ order := by
  rw [h.perm.mem_iff]
  cases k <;> decide

/-! ## One grammar rule at most -/

/-- **No two grammar rules hold for one token.** -/
theorem holds_unique (rules : Rules) (t : String) {j k : Kind} (hj : j ≠ .utility) (hk : k ≠ .utility)
    (h1 : j.holds rules t = true) (h2 : k.holds rules t = true) : j = k := by
  obtain ⟨m, hm, htm⟩ := (holds_iff_name rules t j hj).1 h1
  obtain ⟨n, hn, htn⟩ := (holds_iff_name rules t k hk).1 h2
  obtain rfl : m = n := Name.text_injective (htm.trans htn.symm)
  exact hm.symm.trans hn

theorem nodup_matchRules (rules : Rules) (t : String) : (matchRules rules t).Nodup := by
  have hp : precedence.Nodup := by decide
  exact hp.filter _

theorem length_le_one {kinds : List Kind} (hnodup : kinds.Nodup) (hone : ∀ j ∈ kinds, ∀ k ∈ kinds, j = k) :
    kinds.length ≤ 1 := by
  match kinds with
  | [] => simp
  | [_] => simp
  | j :: k :: rest =>
    have hjk : j = k := hone j (by simp) k (by simp)
    simp [hjk] at hnodup

theorem grammar_kinds_le_one (rules : Rules) (t : String) :
    ((matchRules rules t).filter (· ≠ .utility)).length ≤ 1 := by
  refine length_le_one ((nodup_matchRules rules t).filter _) fun j hj k hk => ?_
  obtain ⟨hj, hju⟩ := List.mem_filter.1 hj
  obtain ⟨hk, hku⟩ := List.mem_filter.1 hk
  exact holds_unique rules t (by simpa using hju) (by simpa using hku) (List.mem_filter.1 hj).2 (List.mem_filter.1 hk).2

/-! ## The first rule that holds -/

/-- the first entry that holds is one with the least index -/
theorem find?_of_first {p : Kind → Bool} {order : List Kind} {k : Kind} (hk : k ∈ order) (hp : p k = true)
    (hfirst : ∀ j ∈ order, p j = true → order.idxOf k ≤ order.idxOf j) : order.find? p = some k := by
  induction order with
  | nil => simp at hk
  | cons a order ih =>
    by_cases ha : a = k
    · subst ha; simp [hp]
    · have hpa : p a = false := by
        rw [Bool.eq_false_iff]
        intro hpa
        have := hfirst a (by simp) hpa
        simp [List.idxOf_cons_ne order ha] at this
      rw [List.find?_cons_of_neg (by simp [hpa])]
      refine ih (by simpa [Ne.symm ha] using hk) fun j hj hpj => ?_
      have hne : a ≠ j := by rintro rfl; rw [hpa] at hpj; exact absurd hpj (by decide)
      have := hfirst j (List.mem_cons_of_mem a hj) hpj
      rw [List.idxOf_cons_ne order ha, List.idxOf_cons_ne order hne] at this
      omega

theorem ne_of_early {k : Kind} (hk : k ∈ earlyKinds) : k ≠ .utility ∧ k ≠ .block := by
  constructor <;> rintro rfl <;> exact absurd hk (by decide)

theorem early_or (k : Kind) : k ∈ earlyKinds ∨ k = .utility ∨ k = .block := by
  cases k <;> decide

theorem Admissible.find?_early {order : List Kind} (h : Admissible order) {rules : Rules} {t : String} {k : Kind}
    (hk : k ∈ earlyKinds) (hold : k.holds rules t = true) : order.find? (Kind.holds rules t) = some k := by
  refine find?_of_first (h.mem k) hold fun j _ hj => ?_
  by_cases hju : j = .utility
  · rw [hju]; exact (h.after k hk).le
  · rw [holds_unique rules t hju (ne_of_early hk).1 hj hold]

theorem Admissible.find?_utility {order : List Kind} (h : Admissible order) {rules : Rules} {t : String}
    (hearly : ∀ k ∈ earlyKinds, k.holds rules t = false) (hold : Kind.utility.holds rules t = true) :
    order.find? (Kind.holds rules t) = some .utility := by
  refine find?_of_first (h.mem _) hold fun j _ hj => ?_
  rcases early_or j with hje | rfl | rfl
  · rw [hearly j hje] at hj; exact absurd hj (by decide)
  · exact le_rfl
  · exact h.before.le

theorem Admissible.find?_block {order : List Kind} (h : Admissible order) {rules : Rules} {t : String}
    (hearly : ∀ k ∈ earlyKinds, k.holds rules t = false) (hutility : Kind.utility.holds rules t = false) :
    order.find? (Kind.holds rules t) = if isBlock t then some .block else none := by
  split_ifs with hblock
  · refine find?_of_first (h.mem _) hblock fun j _ hj => ?_
    rcases early_or j with hje | rfl | rfl
    · rw [hearly j hje] at hj; exact absurd hj (by decide)
    · rw [hutility] at hj; exact absurd hj (by decide)
    · exact le_rfl
  · rw [List.find?_eq_none]
    intro j _ hj
    rcases early_or j with hje | rfl | rfl
    · rw [hearly j hje] at hj; exact absurd hj (by decide)
    · rw [hutility] at hj; exact absurd hj (by decide)
    · exact hblock hj

/-- **Every admissible order finds the same rule first.** -/
theorem find?_admissible {order order' : List Kind} (h : Admissible order) (h' : Admissible order') (rules : Rules)
    (t : String) : order.find? (Kind.holds rules t) = order'.find? (Kind.holds rules t) := by
  by_cases hearly : ∃ k ∈ earlyKinds, k.holds rules t = true
  · obtain ⟨k, hk, hold⟩ := hearly
    rw [h.find?_early hk hold, h'.find?_early hk hold]
  · have hnone : ∀ k ∈ earlyKinds, k.holds rules t = false := by
      intro k hk
      rw [Bool.eq_false_iff]
      exact fun hold => hearly ⟨k, hk, hold⟩
    cases hutility : Kind.utility.holds rules t with
    | true => rw [h.find?_utility hnone hutility, h'.find?_utility hnone hutility]
    | false => rw [h.find?_block hnone hutility, h'.find?_block hnone hutility]

/-! ## The kind of a token -/

theorem classifyBy_eq (order : List Kind) (rules : Rules) (t : String) :
    classifyBy order rules t = if order.find? (Kind.holds rules t) = some .utility ∧ rules.strictBem = true then none
      else order.find? (Kind.holds rules t) := by
  unfold classifyBy
  generalize order.find? (Kind.holds rules t) = found
  rcases found with _ | (_ | _ | _ | _ | _ | _) <;> simp

/-- **The grammar rules never compete.** At most one kind other than utility is listed for a token. The kind of a token
is the same under every admissible order of the rules, and it is the first listed kind, except that there is none if
that is utility and the rules are strict. -/
theorem rules_never_compete (rules : Rules) (t : String) (order : List Kind) (h : Admissible order) :
    ((matchRules rules t).filter (· ≠ .utility)).length ≤ 1 ∧
    classifyBy order rules t = classify rules t ∧
    classify rules t = (if (matchRules rules t).head? = some .utility ∧ rules.strictBem = true then none
      else (matchRules rules t).head?) := by
  refine ⟨grammar_kinds_le_one rules t, ?_, ?_⟩
  · rw [classify, classifyBy_eq, classifyBy_eq, find?_admissible h admissible_precedence]
  · rw [classify, classifyBy_eq, matchRules, List.head?_filter]

/-- elements first and states last among the grammars before utilities, on a token that two rules hold for -/
theorem rules_never_compete_flex :
    Admissible [.element, .nestedElement, .modifier, .state, .utility, .block] ∧
    classifyBy [.element, .nestedElement, .modifier, .state, .utility, .block] .default "flex" =
      classify .default "flex" :=
  have h : Admissible [.element, .nestedElement, .modifier, .state, .utility, .block] :=
    ⟨by decide, by decide, by decide⟩
  ⟨h, (rules_never_compete .default "flex" _ h).2.1⟩

end ClassNaming
