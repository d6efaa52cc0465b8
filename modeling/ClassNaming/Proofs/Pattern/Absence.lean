/-
Characters that a pattern leaves out.

A pattern lacks a character if it is plain and no test in it lets the character pass. This is decided by looking at the
pattern once, and it holds of every word the pattern takes, so a text with the character is no whole match.

- `pass_of_takes`: each character of a word passes one of the tests in the pattern.
- `notMem_of_takes`: so no word of a pattern has a character that the pattern lacks.
- `notMem_of_fullMatches`: nor has a text that the pattern matches as a whole.
- `outside_of_takes`: the same for a run of code points that all tests miss, decided by the ends of the run.
-/
import ClassNaming.Proofs.Pattern.Words

namespace ClassNaming

/-- no code point from `low` to `high` is covered; decided for single characters, for ranges and for ASCII digits -/
def SetItem.misses (low high : Nat) : SetItem → Bool
  | .one code => code < low || high < code
  | .range first last => last < low || high < first
  | .category .digit false => high < 48 || 57 < low
  | .category _ _ => false

/-- no character from `low` to `high` passes the test -/
def CharSet.misses (low high : Nat) (set : CharSet) : Bool :=
  !set.negated && !set.fold && !set.wide && set.items.all (·.misses low high)

namespace Pattern

/-- plain, and no test lets the character pass -/
def lacks (c : Char) : Pattern → Bool
  | .empty | .anchor _ => true
  | .char set => !set.holds c
  | .seq p q | .alt p q => p.lacks c && q.lacks c
  | .group _ p => p.lacks c
  | .rep p _ _ greed => p.lacks c && greed != .possessive
  | .ahead _ _ | .behind _ _ _ | .again _ _ _ | .ifGroup _ _ _ | .atomic _ => false

theorem isPlain_of_lacks {p : Pattern} {c : Char} (h : p.lacks c = true) : p.isPlain = true := by
  induction p with
  | seq p q ihp ihq | alt p q ihp ihq =>
    obtain ⟨hp, hq⟩ : p.lacks c = true ∧ q.lacks c = true := by simpa [lacks] using h
    simp [isPlain, ihp hp, ihq hq]
  | group _ p ih => exact ih h
  | rep p _ _ greed ih =>
    obtain ⟨hp, hg⟩ : p.lacks c = true ∧ greed ≠ .possessive := by simpa [lacks] using h
    simp [isPlain, ih hp, hg]
  | _ => simp_all [isPlain, lacks]

/-- the tests of one character in a pattern -/
def tests : Pattern → List CharSet
  | .char set => [set]
  | .seq p q | .alt p q => p.tests ++ q.tests
  | .group _ p | .rep p _ _ _ => p.tests
  | .empty | .anchor _ | .ahead _ _ | .behind _ _ _ | .again _ _ _ | .ifGroup _ _ _ | .atomic _ => []

/-- the tests let each character of a word pass -/
def Pass (sets : List CharSet) (w : List Char) : Prop := ∀ c ∈ w, ∃ set ∈ sets, set.holds c = true

theorem Pass.mono {sets others : List CharSet} {w : List Char} (h : Pass sets w) (hsub : sets ⊆ others) :
    Pass others w := fun c hc => (h c hc).imp fun _ hset => ⟨hsub hset.1, hset.2⟩

theorem Pass.append {sets : List CharSet} {u v : List Char} (hu : Pass sets u) (hv : Pass sets v) :
    Pass sets (u ++ v) := List.forall_mem_append.2 ⟨hu, hv⟩

theorem pass_turns {P : Span} {sets : List CharSet} (hP : ∀ past w rest, P past w rest → Pass sets w) (count : Nat)
    (past w rest : List Char) (h : P.turns count past w rest) : Pass sets w := by
  induction count generalizing past w rest with
  | zero =>
    obtain rfl : w = [] := h
    exact List.forall_mem_nil _
  | succ count ih =>
    obtain ⟨u, v, rfl, hu, hv⟩ := h
    exact (hP _ _ _ hu).append (ih _ _ _ hv)

/-- **Each character of a word passes a test of the pattern that takes it.** -/
theorem pass_of_takes (p : Pattern) (past w rest : List Char) (hw : p.Takes past w rest) : Pass p.tests w := by
  induction p generalizing past w rest with
  | empty =>
    obtain rfl : w = [] := hw
    exact List.forall_mem_nil _
  | anchor place =>
    obtain ⟨rfl, -⟩ := hw
    exact List.forall_mem_nil _
  | char set =>
    obtain ⟨d, hd, rfl⟩ := hw
    exact List.forall_mem_singleton.2 ⟨set, List.mem_singleton_self set, hd⟩
  | seq p q ihp ihq =>
    obtain ⟨u, v, rfl, hu, hv⟩ := hw
    exact ((ihp _ _ _ hu).mono (List.subset_append_left _ _)).append
      ((ihq _ _ _ hv).mono (List.subset_append_right _ _))
  | alt p q ihp ihq =>
    rcases hw with hw | hw
    · exact (ihp _ _ _ hw).mono (List.subset_append_left _ _)
    · exact (ihq _ _ _ hw).mono (List.subset_append_right _ _)
  | group _ p ih => exact ih past w rest hw
  | rep p least most greed ih =>
    obtain ⟨u, v, rfl, hu, count, -, hv⟩ := hw
    exact (pass_turns ih _ _ _ _ hu).append (pass_turns ih _ _ _ _ hv)
  | _ => exact absurd hw id

theorem holds_of_lacks {p : Pattern} {c : Char} (h : p.lacks c = true) : ∀ set ∈ p.tests, set.holds c = false := by
  induction p with
  | char set => simpa [lacks, tests] using h
  | seq p q ihp ihq | alt p q ihp ihq =>
    obtain ⟨hp, hq⟩ : p.lacks c = true ∧ q.lacks c = true := by simpa [lacks] using h
    exact List.forall_mem_append.2 ⟨ihp hp, ihq hq⟩
  | group _ p ih => exact ih h
  | rep p _ _ greed ih =>
    obtain ⟨hp, -⟩ : p.lacks c = true ∧ greed ≠ .possessive := by simpa [lacks] using h
    exact ih hp
  | _ => simp [tests]

/-- **No word of a pattern has a character that the pattern lacks.** -/
theorem notMem_of_takes {p : Pattern} {c : Char} (h : p.lacks c = true) (past w rest : List Char)
    (hw : p.Takes past w rest) : c ∉ w := by
  intro hc
  obtain ⟨set, hset, hold⟩ := pass_of_takes p past w rest hw c hc
  rw [holds_of_lacks h set hset] at hold
  cases hold

theorem notMem_of_fullMatches {p : Pattern} {c : Char} (h : p.lacks c = true) {t : String}
    (ht : p.fullMatches t = true) : c ∉ t.toList :=
  notMem_of_takes h [] t.toList [] ((fullMatches_iff p (isPlain_of_lacks h) t).1 ht)

/-! ## Runs of characters -/

theorem not_covers_of_misses {low high : Nat} {item : SetItem} (h : item.misses low high = true) {c : Char}
    (hlow : low ≤ c.toNat) (hhigh : c.toNat ≤ high) : item.covers false c = false := by
  cases item with
  | one code =>
    simp only [SetItem.misses, Bool.or_eq_true, decide_eq_true_eq] at h
    simp only [SetItem.covers, beq_eq_false_iff_ne]
    omega
  | range first last =>
    simp only [SetItem.misses, Bool.or_eq_true, decide_eq_true_eq] at h
    simp only [SetItem.covers, Bool.and_eq_false_iff, decide_eq_false_iff_not]
    omega
  | category name negated =>
    cases name <;> cases negated <;> simp only [SetItem.misses, Bool.or_eq_true, decide_eq_true_eq] at h
    · simp only [SetItem.covers, Category.holds]
      simp
      omega
    all_goals exact absurd h (by decide)

theorem not_holds_of_misses {low high : Nat} {set : CharSet} (h : set.misses low high = true) {c : Char}
    (hlow : low ≤ c.toNat) (hhigh : c.toNat ≤ high) : set.holds c = false := by
  obtain ⟨negated, items, fold, wide⟩ := set
  simp only [CharSet.misses, Bool.and_eq_true, Bool.not_eq_true', List.all_eq_true] at h
  obtain ⟨⟨⟨rfl, rfl⟩, rfl⟩, hitems⟩ := h
  have hnone : ∀ item ∈ items, item.covers false c = false := fun item hitem =>
    not_covers_of_misses (hitems item hitem) hlow hhigh
  simpa [CharSet.holds] using hnone

/-- **No word has a character of a run that all tests of the pattern miss.** -/
theorem outside_of_takes {p : Pattern} {low high : Nat} (h : p.tests.all (·.misses low high) = true)
    (past w rest : List Char) (hw : p.Takes past w rest) : ∀ c ∈ w, ¬ (low ≤ c.toNat ∧ c.toNat ≤ high) := by
  rintro c hc ⟨hlow, hhigh⟩
  obtain ⟨set, hset, hold⟩ := pass_of_takes p past w rest hw c hc
  rw [not_holds_of_misses (List.all_eq_true.1 h set hset) hlow hhigh] at hold
  cases hold

end Pattern

end ClassNaming
