/-
The languages of the five grammars.

Each grammar's source is read into a sequence of free patterns between the marks for start and end, and its language is
what `Name` writes down for its kind.

- `mem_segment_language`: the source of a segment, groups of letters and digits joined by single hyphens, describes
  exactly the segments of `IsSegment`.
- `isBlock_iff`, `isElement_iff`, `isNestedElement_iff`, `isModifier_iff`, `isState_iff`: each grammar accepts exactly
  the texts of the names of its kind; `holds_iff_name` says it once for all five.
- `grammars_exact`: the five descriptions together, with the one way to take a name apart and the line feed that no
  grammar accepts at the end.
-/
import ClassNaming.Naming.Classify
import ClassNaming.Proofs.Naming.Parts
import ClassNaming.Proofs.Pattern.Language

namespace ClassNaming

open Pattern Computability

/-! ## The sources as patterns -/

def lowerSet : CharSet := ⟨false, [.range 97 122], false, false⟩

def groupSet : CharSet := ⟨false, [.range 97 122, .range 48 57], false, false⟩

def capitalSet : CharSet := ⟨false, [.range 65 90], false, false⟩

def wordSet : CharSet := ⟨false, [.range 97 122, .range 65 90, .range 48 57], false, false⟩

/-- a hyphen and a group after it -/
def hyphenGroup : Pattern := .seq (.ofChar '-') (.rep (.char groupSet) 1 none .greedy)

/-- what a segment is read into -/
def segmentParts : List Pattern :=
  [.char lowerSet, .rep (.char groupSet) 0 none .greedy, .rep hyphenGroup 0 none .greedy]

/-- a part that may be left out -/
def optional (ps : List Pattern) : Pattern := .rep (sequence ps) 0 (some 1) .greedy

def elementParts : List Pattern := segmentParts ++ literal ['_'] ++ segmentParts

def nestedElementParts : List Pattern :=
  segmentParts ++ literal ['_'] ++ segmentParts ++ literal ['_', '_'] ++ segmentParts

def modifierParts : List Pattern :=
  segmentParts ++ [optional (literal ['_'] ++ segmentParts)] ++ [optional (literal ['_', '_'] ++ segmentParts)]
    ++ literal ['-', '-'] ++ segmentParts

def stateParts : List Pattern :=
  [.group 1 (.alt (sequence (literal ['i', 's'])) (sequence (literal ['h', 'a', 's']))),
    .char capitalSet, .rep (.char wordSet) 0 none .greedy]

theorem blockGrammar_pattern : blockGrammar.pattern = anchored segmentParts := by decide +kernel

theorem elementGrammar_pattern : elementGrammar.pattern = anchored elementParts := by decide +kernel

theorem nestedElementGrammar_pattern : nestedElementGrammar.pattern = anchored nestedElementParts := by decide +kernel

theorem modifierGrammar_pattern : modifierGrammar.pattern = anchored modifierParts := by decide +kernel

theorem stateGrammar_pattern : stateGrammar.pattern = anchored stateParts := by decide +kernel

/-! ## Segments -/

theorem lowerSet_holds (c : Char) : lowerSet.holds c = true ↔ c.isLower = true := by
  simp [lowerSet, CharSet.holds, SetItem.covers, isLower_iff]

theorem groupSet_holds (c : Char) : groupSet.holds c = true ↔ c.isLower = true ∨ c.isDigit = true := by
  simp [groupSet, CharSet.holds, SetItem.covers, isLower_iff, isDigit_iff]

theorem capitalSet_holds (c : Char) : capitalSet.holds c = true ↔ c.isUpper = true := by
  simp [capitalSet, CharSet.holds, SetItem.covers, isUpper_iff]

theorem wordSet_holds (c : Char) : wordSet.holds c = true ↔ c.isAlphanum = true := by
  simp only [wordSet, CharSet.holds, SetItem.covers, Char.isAlphanum, Char.isAlpha, Bool.or_eq_true, isLower_iff,
    isUpper_iff, isDigit_iff]
  simp [or_comm, or_assoc]

/-- what may follow the first letter of a segment -/
structure IsTail (w : List Char) : Prop where
  chars : ∀ c ∈ w, c.isLower = true ∨ c.isDigit = true ∨ c = '-'
  last : w.getLast? ≠ some '-'
  apart : HyphensApart w

theorem IsTail.of_cons {c : Char} {w : List Char} (h : IsTail (c :: w)) : IsTail w := by
  refine ⟨fun d hd => h.chars d (by simp [hd]), fun hl => h.last ?_, List.IsChain.tail h.apart⟩
  rw [List.getLast?_cons, hl]; rfl

theorem isSegment_iff_tail (w : List Char) :
    IsSegment w ↔ ∃ c rest, w = c :: rest ∧ c.isLower = true ∧ IsTail rest := by
  constructor
  · intro h
    obtain ⟨c, rest, rfl, hc⟩ := Segment.exists_cons ⟨w, h⟩
    exact ⟨c, rest, rfl, hc, IsTail.of_cons ⟨h.chars, h.last, h.apart⟩⟩
  · rintro ⟨c, rest, rfl, hc, ht⟩
    have hne : c ≠ '-' := by rintro rfl; exact absurd hc (by decide)
    refine ⟨⟨c, rfl, hc⟩, ?_, ?_, ?_⟩
    · intro d hd
      rcases List.mem_cons.1 hd with rfl | hd
      · exact Or.inl hc
      · exact ht.chars d hd
    · have := ht.last
      cases hl : rest.getLast? <;> simp_all [List.getLast?_cons]
    · cases rest with
      | nil => exact List.isChain_singleton c
      | cons d rest => exact List.isChain_cons_cons.2 ⟨by simp [hne], ht.apart⟩

theorem IsTail.append {u v : List Char} (hu : IsTail u) (hv : IsTail v) : IsTail (u ++ v) := by
  refine ⟨List.forall_mem_append.2 ⟨hu.chars, hv.chars⟩, ?_, ?_⟩
  · have h1 := hu.last
    have h2 := hv.last
    cases hl : v.getLast? <;> simp_all
  · refine List.isChain_append.2 ⟨hu.apart, hv.apart, ?_⟩
    rintro x hx y - ⟨rfl, -⟩
    exact hu.last hx

/-- a letter or a digit: what stands between hyphens -/
def isGroupChar (c : Char) : Prop := c.isLower = true ∨ c.isDigit = true

theorem ne_hyphen {c : Char} (h : isGroupChar c) : c ≠ '-' := by
  rintro rfl
  exact absurd h (by unfold isGroupChar; decide)

theorem isTail_group {u : List Char} (hu : ∀ c ∈ u, isGroupChar c) : IsTail u := by
  have hno : '-' ∉ u := fun h => ne_hyphen (hu _ h) rfl
  refine ⟨fun c hc => ?_, fun h => hno (List.mem_of_getLast? h), apart_of_notMem hno⟩
  rcases hu c hc with h | h
  · exact Or.inl h
  · exact Or.inr (Or.inl h)

theorem mem_hyphenGroup (w : List Char) :
    w ∈ hyphenGroup.language ↔ ∃ g, w = '-' :: g ∧ g ≠ [] ∧ ∀ c ∈ g, isGroupChar c := by
  have hgroup : ∀ g, g ∈ (Pattern.rep (.char groupSet) 1 none .greedy).language ↔ g ≠ [] ∧ ∀ c ∈ g, isGroupChar c := by
    intro g
    rw [mem_language_chars, Nat.one_le_iff_ne_zero, Ne, List.length_eq_zero_iff]
    simp only [groupSet_holds, isGroupChar, ne_eq]
  change w ∈ (ofChar '-').language * _ ↔ _
  rw [language_ofChar, Language.mem_mul]
  constructor
  · rintro ⟨_, rfl, g, hg, rfl⟩
    exact ⟨g, rfl, (hgroup g).1 hg⟩
  · rintro ⟨g, rfl, hg⟩
    exact ⟨['-'], rfl, g, (hgroup g).2 hg, rfl⟩

theorem isTail_hyphenGroup {w : List Char} (h : w ∈ hyphenGroup.language) : IsTail w := by
  obtain ⟨g, rfl, hne, hg⟩ := (mem_hyphenGroup w).1 h
  have ht := isTail_group hg
  obtain ⟨c, rest, rfl⟩ := List.exists_cons_of_ne_nil hne
  refine ⟨?_, ?_, ?_⟩
  · intro d hd
    rcases List.mem_cons.1 hd with rfl | hd
    · exact Or.inr (Or.inr rfl)
    · exact ht.chars d hd
  · have := ht.last
    simpa using this
  · exact List.isChain_cons_cons.2 ⟨fun hc => ne_hyphen (hg c (by simp)) hc.2, ht.apart⟩

theorem isTail_flatten {S : List (List Char)} (h : ∀ y ∈ S, y ∈ hyphenGroup.language) : IsTail S.flatten := by
  induction S with
  | nil => exact isTail_group (by simp)
  | cons y S ih =>
    rw [List.flatten_cons]
    exact (isTail_hyphenGroup (h y (by simp))).append (ih fun z hz => h z (by simp [hz]))

/-- a tail falls into a group and further groups behind hyphens -/
theorem IsTail.exists_groups {w : List Char} (h : IsTail w) :
    ∃ (u : List Char) (S : List (List Char)), w = u ++ S.flatten ∧ (∀ c ∈ u, isGroupChar c) ∧
      ∀ y ∈ S, y ∈ hyphenGroup.language := by
  induction w with
  | nil => exact ⟨[], [], rfl, by simp, by simp⟩
  | cons c w ih =>
    obtain ⟨u, S, rfl, hu, hS⟩ := ih h.of_cons
    by_cases hc : c = '-'
    · subst hc
      -- the hyphen is not the last character and no other follows it, so the group behind it is not empty
      have hne : u ≠ [] := by
        rintro rfl
        cases S with
        | nil => exact h.last rfl
        | cons y S =>
          obtain ⟨g, rfl, -⟩ := (mem_hyphenGroup y).1 (hS y (by simp))
          exact (List.isChain_cons_cons.1 h.apart).1 ⟨rfl, rfl⟩
      refine ⟨[], ('-' :: u) :: S, by simp, by simp, ?_⟩
      intro y hy
      rcases List.mem_cons.1 hy with rfl | hy
      · exact (mem_hyphenGroup _).2 ⟨u, rfl, hne, hu⟩
      · exact hS y hy
    · refine ⟨c :: u, S, by simp, ?_, hS⟩
      intro d hd
      rcases List.mem_cons.1 hd with rfl | hd
      · have := h.chars d (by simp)
        exact this.imp_right fun hor => hor.resolve_right hc
      · exact hu d hd

/-- **The source of a segment describes the segments.** -/
theorem mem_segment_language (w : List Char) : w ∈ (sequence segmentParts).language ↔ IsSegment w := by
  have hgroup : ∀ u, u ∈ (Pattern.rep (.char groupSet) 0 none .greedy).language ↔ ∀ c ∈ u, isGroupChar c := by
    intro u
    simp only [mem_language_chars, Nat.zero_le, true_and, groupSet_holds, isGroupChar]
  rw [isSegment_iff_tail, language_sequence]
  simp only [segmentParts, List.map_cons, List.map_nil, List.prod_cons, List.prod_nil, mul_one, Language.mem_mul,
    hgroup, language_star hyphenGroup, Language.mem_kstar]
  constructor
  · rintro ⟨_, ⟨c, hc, rfl⟩, _, ⟨u, hu, _, ⟨S, rfl, hS⟩, rfl⟩, rfl⟩
    exact ⟨c, u ++ S.flatten, rfl, (lowerSet_holds c).1 hc, (isTail_group hu).append (isTail_flatten hS)⟩
  · rintro ⟨c, rest, rfl, hc, ht⟩
    obtain ⟨u, S, rfl, hu, hS⟩ := ht.exists_groups
    exact ⟨[c], ⟨c, (lowerSet_holds c).2 hc, rfl⟩, u ++ S.flatten, ⟨u, hu, _, ⟨S, rfl, hS⟩, rfl⟩, rfl⟩

/-! ## The five grammars -/

/-- a grammar whose source is read into free parts between marks accepts exactly their language -/
theorem accepts_iff {g : Grammar} {ps : List Pattern} (hg : g.pattern = anchored ps) (hps : ∀ p ∈ ps, p.isFree = true)
    (t : String) : g.accepts t = true ↔ t.toList ∈ (sequence ps).language := by
  rw [Grammar.accepts, hg, fullMatches_anchored hps]

theorem isBlock_iff (t : String) : isBlock t = true ↔ IsSegment t.toList := by
  rw [isBlock, accepts_iff blockGrammar_pattern (by decide), mem_segment_language]

theorem isElement_iff (t : String) : isElement t = true ↔ ∃ s₁ s₂ : Segment, t.toList = s₁.1 ++ ['_'] ++ s₂.1 := by
  rw [isElement, accepts_iff elementGrammar_pattern (by decide), elementParts]
  simp only [language_sequence_append, Language.mem_mul, mem_segment_language, mem_literal]
  constructor
  · rintro ⟨_, ⟨u, hu, _, rfl, rfl⟩, v, hv, ht⟩
    exact ⟨⟨u, hu⟩, ⟨v, hv⟩, ht.symm⟩
  · rintro ⟨s₁, s₂, ht⟩
    exact ⟨_, ⟨s₁.1, s₁.2, _, rfl, rfl⟩, s₂.1, s₂.2, ht.symm⟩

theorem isNestedElement_iff (t : String) : isNestedElement t = true ↔
    ∃ s₁ s₂ s₃ : Segment, t.toList = s₁.1 ++ ['_'] ++ s₂.1 ++ ['_', '_'] ++ s₃.1 := by
  rw [isNestedElement, accepts_iff nestedElementGrammar_pattern (by decide), nestedElementParts]
  simp only [language_sequence_append, Language.mem_mul, mem_segment_language, mem_literal]
  constructor
  · rintro ⟨_, ⟨_, ⟨_, ⟨u, hu, _, rfl, rfl⟩, v, hv, rfl⟩, _, rfl, rfl⟩, x, hx, ht⟩
    exact ⟨⟨u, hu⟩, ⟨v, hv⟩, ⟨x, hx⟩, ht.symm⟩
  · rintro ⟨s₁, s₂, s₃, ht⟩
    exact ⟨_, ⟨_, ⟨_, ⟨s₁.1, s₁.2, _, rfl, rfl⟩, s₂.1, s₂.2, rfl⟩, _, rfl, rfl⟩, s₃.1, s₃.2, ht.symm⟩

theorem mem_optional (ps : List Pattern) (w : List Char) :
    w ∈ (sequence [optional ps]).language ↔ w = [] ∨ w ∈ (sequence ps).language := by
  change w ∈ (Pattern.rep _ 0 (some 1) .greedy).language ↔ _
  rw [language_optional, Language.mem_add, Language.mem_one]

/-- what the parts before the hyphens of a modifier describe: the four sorts of base -/
theorem mem_base_language (w : List Char) :
    w ∈ (sequence (segmentParts ++ [optional (literal ['_'] ++ segmentParts)]
      ++ [optional (literal ['_', '_'] ++ segmentParts)])).language ↔ ∃ b : Base, w = b.text := by
  simp only [language_sequence_append, Language.mem_mul, mem_segment_language, mem_literal,
    mem_optional]
  constructor
  · rintro ⟨_, ⟨u, hu, _, rfl | ⟨_, rfl, v, hv, rfl⟩, rfl⟩, _, rfl | ⟨_, rfl, x, hx, rfl⟩, rfl⟩
    · exact ⟨.segment ⟨u, hu⟩, by simp [Base.text]⟩
    · exact ⟨.inner ⟨u, hu⟩ ⟨x, hx⟩, by simp [Base.text]⟩
    · exact ⟨.element ⟨u, hu⟩ ⟨v, hv⟩, by simp [Base.text]⟩
    · exact ⟨.nested ⟨u, hu⟩ ⟨v, hv⟩ ⟨x, hx⟩, by simp [Base.text]⟩
  · rintro ⟨b, rfl⟩
    cases b with
    | segment s => exact ⟨s.1, ⟨s.1, s.2, [], Or.inl rfl, by simp⟩, [], Or.inl rfl, by simp [Base.text]⟩
    | element s₁ s₂ =>
      exact ⟨_, ⟨s₁.1, s₁.2, _, Or.inr ⟨_, rfl, s₂.1, s₂.2, rfl⟩, rfl⟩, [], Or.inl rfl, by simp [Base.text]⟩
    | nested s₁ s₂ s₃ =>
      exact ⟨_, ⟨s₁.1, s₁.2, _, Or.inr ⟨_, rfl, s₂.1, s₂.2, rfl⟩, rfl⟩, _, Or.inr ⟨_, rfl, s₃.1, s₃.2, rfl⟩,
        by simp [Base.text]⟩
    | inner s₁ s₂ =>
      exact ⟨s₁.1, ⟨s₁.1, s₁.2, [], Or.inl rfl, by simp⟩, _, Or.inr ⟨_, rfl, s₂.1, s₂.2, rfl⟩, by simp [Base.text]⟩

theorem isModifier_iff (t : String) : isModifier t = true ↔
    ∃ (b : Base) (s : Segment), t.toList = b.text ++ ['-', '-'] ++ s.1 := by
  rw [isModifier, accepts_iff modifierGrammar_pattern (by decide), modifierParts, language_sequence_append,
    language_sequence_append _ (literal ['-', '-'])]
  simp only [Language.mem_mul, mem_base_language, mem_segment_language, mem_literal]
  constructor
  · rintro ⟨_, ⟨_, ⟨b, rfl⟩, _, rfl, rfl⟩, v, hv, ht⟩
    exact ⟨b, ⟨v, hv⟩, ht.symm⟩
  · rintro ⟨b, s, ht⟩
    exact ⟨_, ⟨_, ⟨b, rfl⟩, _, rfl, rfl⟩, s.1, s.2, ht.symm⟩

theorem mem_lead (w : List Char) :
    w ∈ (Pattern.alt (sequence (literal ['i', 's'])) (sequence (literal ['h', 'a', 's']))).language ↔
      ∃ l : Lead, w = l.text := by
  change w ∈ (sequence _).language + (sequence _).language ↔ _
  rw [Language.mem_add, mem_literal, mem_literal]
  constructor
  · rintro (rfl | rfl)
    · exact ⟨.is, rfl⟩
    · exact ⟨.has, rfl⟩
  · rintro ⟨l, rfl⟩
    cases l with
    | is => exact Or.inl rfl
    | has => exact Or.inr rfl

theorem isState_iff (t : String) : isState t = true ↔
    ∃ (l : Lead) (c : Capital) (w : Alphanumeric), t.toList = l.text ++ [c.1] ++ w.1 := by
  rw [isState, accepts_iff stateGrammar_pattern (by decide), language_sequence]
  simp only [stateParts, List.map_cons, List.map_nil, List.prod_cons, List.prod_nil, mul_one]
  change t.toList ∈ (Pattern.alt _ _).language * (charWords capitalSet * _) ↔ _
  simp only [Language.mem_mul, mem_lead, mem_language_chars, Nat.zero_le, true_and, wordSet_holds]
  constructor
  · rintro ⟨_, ⟨l, rfl⟩, _, ⟨_, ⟨c, hc, rfl⟩, w, hw, rfl⟩, ht⟩
    exact ⟨l, ⟨c, (capitalSet_holds c).1 hc⟩, ⟨w, hw⟩, by simpa using ht.symm⟩
  · rintro ⟨l, c, w, ht⟩
    exact ⟨_, ⟨l, rfl⟩, _, ⟨_, ⟨c.1, (capitalSet_holds c.1).2 c.2, rfl⟩, w.1, w.2, rfl⟩, by simpa using ht.symm⟩

/-- **The rule of a kind holds for the texts of the names of that kind**, whatever the rules in force. -/
theorem holds_iff_name (rules : Rules) (t : String) (k : Kind) (hk : k ≠ .utility) :
    k.holds rules t = true ↔ ∃ n : Name, n.kind = k ∧ n.text = t.toList := by
  cases k with
  | utility => exact absurd rfl hk
  | block =>
    rw [Kind.holds, isBlock_iff]
    constructor
    · intro h; exact ⟨.block ⟨_, h⟩, rfl, rfl⟩
    · rintro ⟨n, hn, ht⟩
      cases n <;> simp only [Name.kind, reduceCtorEq] at hn
      rename_i s
      rw [← ht]; exact s.2
  | element =>
    rw [Kind.holds, isElement_iff]
    constructor
    · rintro ⟨s₁, s₂, ht⟩; exact ⟨.element s₁ s₂, rfl, ht.symm⟩
    · rintro ⟨n, hn, ht⟩
      cases n <;> simp only [Name.kind, reduceCtorEq] at hn
      exact ⟨_, _, ht.symm⟩
  | nestedElement =>
    rw [Kind.holds, isNestedElement_iff]
    constructor
    · rintro ⟨s₁, s₂, s₃, ht⟩; exact ⟨.nestedElement s₁ s₂ s₃, rfl, ht.symm⟩
    · rintro ⟨n, hn, ht⟩
      cases n <;> simp only [Name.kind, reduceCtorEq] at hn
      exact ⟨_, _, _, ht.symm⟩
  | modifier =>
    rw [Kind.holds, isModifier_iff]
    constructor
    · rintro ⟨b, s, ht⟩; exact ⟨.modifier b s, rfl, ht.symm⟩
    · rintro ⟨n, hn, ht⟩
      cases n <;> simp only [Name.kind, reduceCtorEq] at hn
      exact ⟨_, _, ht.symm⟩
  | state =>
    rw [Kind.holds, isState_iff]
    constructor
    · rintro ⟨l, c, w, ht⟩; exact ⟨.state l c w, rfl, ht.symm⟩
    · rintro ⟨n, hn, ht⟩
      cases n <;> simp only [Name.kind, reduceCtorEq] at hn
      exact ⟨_, _, _, ht.symm⟩

/-- a line feed at the end is accepted by no grammar, although the end mark would allow one after it -/
theorem holds_lineFeed (rules : Rules) (t : String) (k : Kind) (hk : k ≠ .utility) :
    k.holds rules (t ++ "\n") = false := by
  rw [Bool.eq_false_iff, Ne, holds_iff_name rules _ k hk]
  rintro ⟨n, -, ht⟩
  refine n.lineFeed_notMem ?_
  rw [ht, String.toList_append]
  simp

/-- **The languages of the five grammars.** A block is a segment; elements, nested elements and modifiers are segments
joined by `_`, `__` and `--`; a state is `is` or `has`, a capital, and letters and digits. A text is a name in at most
one way, and no grammar accepts a line feed at the end. -/
theorem grammars_exact (t : String) :
    (isBlock t = true ↔ IsSegment t.toList) ∧
    (isElement t = true ↔ ∃ s₁ s₂ : Segment, t.toList = s₁.1 ++ ['_'] ++ s₂.1) ∧
    (isNestedElement t = true ↔ ∃ s₁ s₂ s₃ : Segment, t.toList = s₁.1 ++ ['_'] ++ s₂.1 ++ ['_', '_'] ++ s₃.1) ∧
    (isModifier t = true ↔ ∃ (b : Base) (s : Segment), t.toList = b.text ++ ['-', '-'] ++ s.1) ∧
    (isState t = true ↔ ∃ (l : Lead) (c : Capital) (w : Alphanumeric), t.toList = l.text ++ [c.1] ++ w.1) ∧
    { n : Name | n.text = t.toList }.Subsingleton ∧
    (isBlock (t ++ "\n") = false ∧ isElement (t ++ "\n") = false ∧ isNestedElement (t ++ "\n") = false ∧
      isModifier (t ++ "\n") = false ∧ isState (t ++ "\n") = false) := by
  refine ⟨isBlock_iff t, isElement_iff t, isNestedElement_iff t, isModifier_iff t, isState_iff t, ?_, ?_⟩
  · intro m hm n hn
    exact Name.text_injective (hm.trans hn.symm)
  · have hline := holds_lineFeed .default t
    exact ⟨hline .block (by decide), hline .element (by decide), hline .nestedElement (by decide),
      hline .modifier (by decide), hline .state (by decide)⟩

end ClassNaming
