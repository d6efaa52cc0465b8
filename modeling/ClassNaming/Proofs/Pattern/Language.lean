/-
The language of a pattern.

A pattern is free if it is plain and asks for no place: what it takes does not depend on what stands around the word.
`Pattern.language` gives its words as a language, with product, sum and powers for sequence, choice and repetition.

- `takes_iff_mem_language`: a free pattern takes a word exactly if the word is in its language.
- `fullMatches_anchored`: a sequence of free patterns between the marks for start and end matches a whole text exactly
  if the text is in its language. The end mark allows a line feed after it, but a whole match leaves nothing over.
-/
import Mathlib.Computability.Language
import ClassNaming.Proofs.Pattern.Words

namespace ClassNaming.Pattern

open Computability

/-- plain, and no place is asked for -/
def isFree : Pattern → Bool
  | .empty | .char _ => true
  | .seq p q | .alt p q => p.isFree && q.isFree
  | .group _ p => p.isFree
  | .rep p _ _ greed => p.isFree && greed != .possessive
  | .anchor _ | .ahead _ _ | .behind _ _ _ | .again _ _ _ | .ifGroup _ _ _ | .atomic _ => false

/-- the words of one character that passes a test -/
def charWords (set : CharSet) : Language Char := { w | ∃ c, set.holds c = true ∧ w = [c] }

/-- `least` words of `L` and up to `most` more -/
def repeated (L : Language Char) (least : Nat) (most : Option Nat) : Language Char :=
  { w | ∃ count, (∀ m ∈ most, count ≤ m) ∧ w ∈ L ^ (least + count) }

/-- the words of a free pattern -/
def language : Pattern → Language Char
  | .empty => 1
  | .char set => charWords set
  | .seq p q => language p * language q
  | .alt p q => language p + language q
  | .group _ p => language p
  | .rep p least most _ => repeated (language p) least (most.map (· - least))
  | .anchor _ | .ahead _ _ | .behind _ _ _ | .again _ _ _ | .ifGroup _ _ _ | .atomic _ => 0

/-! ## Free patterns -/

theorem isPlain_of_isFree {p : Pattern} (h : p.isFree = true) : p.isPlain = true := by
  induction p with
  | seq p q ihp ihq | alt p q ihp ihq =>
    obtain ⟨hp, hq⟩ : p.isFree = true ∧ q.isFree = true := by simpa [isFree] using h
    simp [isPlain, ihp hp, ihq hq]
  | group _ p ih => exact ih h
  | rep p _ _ greed ih =>
    obtain ⟨hp, hg⟩ : p.isFree = true ∧ greed ≠ .possessive := by simpa [isFree] using h
    simp [isPlain, ih hp, hg]
  | _ => simp_all [isPlain, isFree]

theorem seq_iff_mem_mul {P Q : Span} {L M : Language Char} (hP : ∀ past w rest, P past w rest ↔ w ∈ L)
    (hQ : ∀ past w rest, Q past w rest ↔ w ∈ M) (past w rest : List Char) : P.seq Q past w rest ↔ w ∈ L * M := by
  rw [Language.mem_mul]
  constructor
  · rintro ⟨u, v, rfl, hu, hv⟩
    exact ⟨u, (hP _ _ _).1 hu, v, (hQ _ _ _).1 hv, rfl⟩
  · rintro ⟨u, hu, v, hv, rfl⟩
    exact ⟨u, v, rfl, (hP _ _ _).2 hu, (hQ _ _ _).2 hv⟩

theorem turns_iff_mem_pow {P : Span} {L : Language Char} (hP : ∀ past w rest, P past w rest ↔ w ∈ L) (count : Nat)
    (past w rest : List Char) : P.turns count past w rest ↔ w ∈ L ^ count := by
  induction count generalizing past w rest with
  | zero => simp [Span.turns]
  | succ count ih => rw [pow_succ', Span.turns]; exact seq_iff_mem_mul hP ih past w rest

theorem rep_iff_mem_repeated {P : Span} {L : Language Char} (hP : ∀ past w rest, P past w rest ↔ w ∈ L) (least : Nat)
    (most : Option Nat) (past w rest : List Char) :
    Span.seq (P.turns least) (P.upTo most) past w rest ↔ w ∈ repeated L least most := by
  have hsplit : Span.seq (P.turns least) (P.upTo most) past w rest ↔
      ∃ count, (∀ m ∈ most, count ≤ m) ∧ P.turns (least + count) past w rest := by
    constructor
    · rintro ⟨u, v, rfl, hu, count, hcount, hv⟩
      exact ⟨count, hcount, by rw [turns_add]; exact ⟨u, v, rfl, hu, hv⟩⟩
    · rintro ⟨count, hcount, h⟩
      rw [turns_add] at h
      obtain ⟨u, v, rfl, hu, hv⟩ := h
      exact ⟨u, v, rfl, hu, count, hcount, hv⟩
  rw [hsplit]
  exact exists_congr fun count => and_congr_right fun _ => turns_iff_mem_pow hP _ past w rest

/-- **A free pattern takes the words of its language**, wherever they stand. -/
theorem takes_iff_mem_language {p : Pattern} (h : p.isFree = true) (past w rest : List Char) :
    p.Takes past w rest ↔ w ∈ p.language := by
  induction p generalizing past w rest with
  | empty | char _ => rfl
  | seq p q ihp ihq =>
    obtain ⟨hp, hq⟩ : p.isFree = true ∧ q.isFree = true := by simpa [isFree] using h
    exact seq_iff_mem_mul (ihp hp) (ihq hq) past w rest
  | alt p q ihp ihq =>
    obtain ⟨hp, hq⟩ : p.isFree = true ∧ q.isFree = true := by simpa [isFree] using h
    exact or_congr (ihp hp past w rest) (ihq hq past w rest)
  | group _ p ih => exact ih h past w rest
  | rep p least most greed ih =>
    obtain ⟨hp, -⟩ : p.isFree = true ∧ greed ≠ .possessive := by simpa [isFree] using h
    exact rep_iff_mem_repeated (ih hp) least _ past w rest
  | _ => simp [isFree] at h

/-! ## Repetitions -/

theorem language_star (p : Pattern) (greed : Greed) : (Pattern.rep p 0 none greed).language = p.language∗ := by
  ext w
  rw [Language.kstar_eq_iSup_pow, Language.mem_iSup]
  exact exists_congr fun count => by simp

theorem language_optional (p : Pattern) (greed : Greed) :
    (Pattern.rep p 0 (some 1) greed).language = 1 + p.language := by
  ext w
  rw [Language.mem_add, Language.mem_one]
  constructor
  · rintro ⟨count, hcount, hw⟩
    have hle : count ≤ 1 := hcount 1 rfl
    interval_cases count
    · exact Or.inl (by simpa using hw)
    · exact Or.inr (by simpa using hw)
  · rintro (rfl | hw)
    · exact ⟨0, by simp, by simp⟩
    · exact ⟨1, by simp, by simpa using hw⟩

theorem mem_charWords_pow {set : CharSet} {n : Nat} {w : List Char} :
    w ∈ charWords set ^ n ↔ w.length = n ∧ ∀ c ∈ w, set.holds c = true := by
  induction n generalizing w with
  | zero =>
    rw [pow_zero, Language.mem_one]
    constructor
    · rintro rfl; exact ⟨rfl, by simp⟩
    · rintro ⟨hlen, -⟩; exact List.eq_nil_of_length_eq_zero hlen
  | succ n ih =>
    rw [pow_succ', Language.mem_mul]
    constructor
    · rintro ⟨_, ⟨c, hc, rfl⟩, v, hv, rfl⟩
      obtain ⟨hlen, hall⟩ := ih.1 hv
      exact ⟨by simp [hlen], by simpa [hc] using hall⟩
    · rintro ⟨hlen, hall⟩
      obtain ⟨c, v, rfl⟩ : ∃ c v, w = c :: v := List.exists_cons_of_length_eq_add_one hlen
      exact ⟨[c], ⟨c, hall c (by simp), rfl⟩, v, ih.2 ⟨by simpa using hlen, fun d hd => hall d (by simp [hd])⟩, rfl⟩

/-- at least `least` characters that pass a test -/
theorem mem_language_chars {set : CharSet} {least : Nat} {greed : Greed} {w : List Char} :
    w ∈ (Pattern.rep (.char set) least none greed).language ↔
      least ≤ w.length ∧ ∀ c ∈ w, set.holds c = true := by
  constructor
  · rintro ⟨count, -, hw⟩
    obtain ⟨hlen, hall⟩ := mem_charWords_pow.1 hw
    exact ⟨by omega, hall⟩
  · rintro ⟨hlen, hall⟩
    exact ⟨w.length - least, by simp, mem_charWords_pow.2 ⟨by omega, hall⟩⟩

theorem holds_ofChar (c d : Char) : CharSet.holds ⟨false, [.one c.toNat], false, false⟩ d = true ↔ d = c := by
  simp [CharSet.holds, SetItem.covers, Char.toNat_inj]

theorem language_ofChar (c : Char) : (ofChar c).language = {[c]} := by
  ext w
  change (∃ d, _ ∧ w = [d]) ↔ w = [c]
  simp only [holds_ofChar, exists_eq_left]

/-! ## Sequences between the marks for start and end -/

theorem language_sequence (ps : List Pattern) : (sequence ps).language = (ps.map language).prod := by
  induction ps with
  | nil => rfl
  | cons p ps ih =>
    rw [List.map_cons, List.prod_cons, ← ih]
    cases ps with
    | nil => exact (mul_one _).symm
    | cons q qs => rfl

theorem language_sequence_append (ps qs : List Pattern) :
    (sequence (ps ++ qs)).language = (sequence ps).language * (sequence qs).language := by
  simp [language_sequence]

/-- the characters of a text, one after the other -/
def literal (cs : List Char) : List Pattern := cs.map ofChar

theorem mem_literal (cs w : List Char) : w ∈ (sequence (literal cs)).language ↔ w = cs := by
  induction cs generalizing w with
  | nil => exact Language.mem_one w
  | cons c cs ih =>
    rw [literal, language_sequence, List.map_cons, List.map_cons, List.prod_cons, ← language_sequence, language_ofChar,
      Language.mem_mul]
    constructor
    · rintro ⟨_, rfl, v, hv, rfl⟩
      rw [(ih v).1 hv]; rfl
    · rintro rfl
      exact ⟨[c], rfl, cs, (ih cs).2 rfl, rfl⟩

/-- from the start of the text to its end -/
def anchored (ps : List Pattern) : Pattern :=
  sequence ([.anchor .textStart] ++ ps ++ [.anchor .lastLineEnd])

/-- a property of every part that sequences keep is one of the whole sequence -/
theorem sequence_all {f : Pattern → Bool} (hempty : f .empty = true) (hseq : ∀ p q, f (.seq p q) = (f p && f q))
    {ps : List Pattern} (h : ∀ p ∈ ps, f p = true) : f (sequence ps) = true := by
  induction ps with
  | nil => exact hempty
  | cons p ps ih =>
    have hps := ih fun q hq => h q (List.mem_cons_of_mem p hq)
    cases ps with
    | nil => exact h p List.mem_cons_self
    | cons q qs => simp [sequence, hseq, h p List.mem_cons_self, hps]

/-- **Whole matches between marks.** -/
theorem fullMatches_anchored {ps : List Pattern} (h : ∀ p ∈ ps, p.isFree = true) (t : String) :
    (anchored ps).fullMatches t = true ↔ t.toList ∈ (sequence ps).language := by
  have hplain : (anchored ps).isPlain = true := by
    refine sequence_all rfl (fun _ _ => rfl) fun p hp => ?_
    simp only [List.mem_append, List.mem_singleton] at hp
    rcases hp with (rfl | hp) | rfl
    · rfl
    · exact isPlain_of_isFree (h p hp)
    · rfl
  have hfree : (sequence ps).isFree = true := sequence_all rfl (fun _ _ => rfl) h
  rw [fullMatches_iff _ hplain, ← takes_iff_mem_language hfree [] _ [], anchored, takes_sequence_append,
    takes_sequence_append]
  -- nothing stands before the start or after the end, so both marks hold
  constructor
  · rintro ⟨_, _, ht, ⟨_, w, rfl, ⟨rfl, -⟩, hw⟩, ⟨rfl, -⟩⟩
    rw [ht]
    simpa using hw
  · intro hw
    exact ⟨t.toList, [], by simp, ⟨[], t.toList, rfl, ⟨rfl, rfl⟩, by simpa using hw⟩, ⟨rfl, rfl⟩⟩

end ClassNaming.Pattern
