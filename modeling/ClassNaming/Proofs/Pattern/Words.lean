/-
The words a pattern takes, said without backtracking.

`Takes p past w rest`: the pattern `p` can match the word `w` where `past` (nearest character first) stands before it
and `rest` after it. It is defined for plain patterns, those without look around, references to groups or locked parts: the
words of a plain pattern do not depend on the order in which ways are tried, nor on what groups have kept.

- `tries_run`: the matcher run on a plain pattern succeeds exactly if the continuation accepts the place after some word
  that the pattern takes. The continuation is arbitrary apart from what it says at those places.
- `fullMatches_iff`: a plain pattern matches a whole text exactly if it takes that text with nothing around it.

Repetition carries the work: the matcher gives up a repetition after a turn that took nothing, and it runs on fuel.
Turns that take nothing can be left out (`turns_busy`), so neither loses a word.
-/
import Mathlib.Tactic
import ClassNaming.Pattern.Matcher

namespace ClassNaming.Pattern

/-! ## Words with what stands around them -/

/-- a set of words, each with the text before it (nearest first) and the text after it -/
abbrev Span := List Char → List Char → List Char → Prop

/-- a word of `P` and then one of `Q` -/
def Span.seq (P Q : Span) : Span := fun past w rest =>
  ∃ u v, w = u ++ v ∧ P past u (v ++ rest) ∧ Q (u.reverse ++ past) v rest

/-- `count` words of `P`, one after the other -/
def Span.turns (P : Span) : Nat → Span
  | 0 => fun _ w _ => w = []
  | count + 1 => P.seq (P.turns count)

/-- at most `most` words of `P`, one after the other -/
def Span.upTo (P : Span) (most : Option Nat) : Span := fun past w rest =>
  ∃ count, (∀ m ∈ most, count ≤ m) ∧ P.turns count past w rest

/-- no look around, no reference to a group, no locked part -/
def isPlain : Pattern → Bool
  | .empty | .char _ | .anchor _ => true
  | .seq p q | .alt p q => p.isPlain && q.isPlain
  | .group _ p => p.isPlain
  | .rep p _ _ greed => p.isPlain && greed != .possessive
  | .ahead _ _ | .behind _ _ _ | .again _ _ _ | .ifGroup _ _ _ | .atomic _ => false

/-- the words of a plain pattern -/
def Takes : Pattern → Span
  | .empty => fun _ w _ => w = []
  | .char set => fun _ w _ => ∃ c, set.holds c = true ∧ w = [c]
  | .seq p q => Span.seq (Takes p) (Takes q)
  | .alt p q => fun past w rest => Takes p past w rest ∨ Takes q past w rest
  | .group _ p => Takes p
  | .rep p least most _ => Span.seq (Span.turns (Takes p) least) (Span.upTo (Takes p) (most.map (· - least)))
  | .anchor place => fun past w rest => w = [] ∧ place.holds ⟨past, rest, []⟩ = true
  | .ahead _ _ | .behind _ _ _ | .again _ _ _ | .ifGroup _ _ _ | .atomic _ => fun _ _ _ => False

/-- a step of the matcher succeeds exactly if the continuation accepts the place after some word of `P`, whatever the
groups hold there -/
def Tries (step : Spot → Next → Option Spot) (P : Span) : Prop :=
  ∀ (s : Spot) (k : Next) (K : List Char → List Char → Prop),
    (∀ u v groups, s.rest = u ++ v → P s.past u v → ((k ⟨u.reverse ++ s.past, v, groups⟩).isSome ↔ K u v)) →
    ((step s k).isSome ↔ ∃ u v, s.rest = u ++ v ∧ P s.past u v ∧ K u v)

/-! ## Turns -/

theorem seq_nil (P : Span) : Span.seq (fun _ w _ => w = []) P = P := by
  funext past w rest
  simp [Span.seq]

theorem seq_assoc (P Q R : Span) : Span.seq (Span.seq P Q) R = Span.seq P (Span.seq Q R) := by
  funext past w rest
  refine propext ⟨?_, ?_⟩
  · rintro ⟨_, c, rfl, ⟨a, b, rfl, ha, hb⟩, hc⟩
    exact ⟨a, b ++ c, by simp, by simpa using ha, b, c, rfl, hb, by simpa using hc⟩
  · rintro ⟨a, _, rfl, ha, b, c, rfl, hb, hc⟩
    exact ⟨a ++ b, c, by simp, ⟨a, b, rfl, by simpa using ha, hb⟩, by simpa using hc⟩

theorem turns_add (P : Span) (m n : Nat) : P.turns (m + n) = Span.seq (P.turns m) (P.turns n) := by
  induction m with
  | zero => rw [Nat.zero_add]; exact (seq_nil _).symm
  | succ m ih => rw [Nat.add_right_comm, Span.turns, ih, Span.turns, seq_assoc]

/-- turns that take nothing can be left out: either nothing is taken at all, or a first turn takes something -/
theorem turns_busy (P : Span) (count : Nat) (past w rest : List Char) (h : P.turns count past w rest) :
    w = [] ∨ ∃ fewer u v, fewer < count ∧ u ≠ [] ∧ w = u ++ v ∧ P past u (v ++ rest) ∧
      P.turns fewer (u.reverse ++ past) v rest := by
  induction count generalizing past w with
  | zero => exact Or.inl h
  | succ count ih =>
    obtain ⟨u, v, rfl, hu, hv⟩ := h
    by_cases hne : u = []
    · subst hne
      rcases ih past v (by simpa using hv) with rfl | ⟨fewer, a, b, hlt, ha, rfl, hpa, hpb⟩
      · exact Or.inl rfl
      · exact Or.inr ⟨fewer, a, b, by omega, ha, rfl, hpa, hpb⟩
    · exact Or.inr ⟨count, u, v, by omega, hne, rfl, hu, hv⟩

/-! ## Steps of the matcher -/

theorem Tries.comp {a b : Spot → Next → Option Spot} {P Q : Span} (ha : Tries a P) (hb : Tries b Q) :
    Tries (fun s k => a s fun t => b t k) (Span.seq P Q) := by
  intro s k K hk
  rw [ha s _ (fun u v => ∃ v₁ v₂, v = v₁ ++ v₂ ∧ Q (u.reverse ++ s.past) v₁ v₂ ∧ K (u ++ v₁) v₂)]
  · constructor
    · rintro ⟨u, _, hs, hu, v₁, v₂, rfl, hv, hK⟩
      exact ⟨u ++ v₁, v₂, by simp [hs], ⟨u, v₁, rfl, hu, hv⟩, hK⟩
    · rintro ⟨_, v₂, hs, ⟨u, v₁, rfl, hu, hv⟩, hK⟩
      exact ⟨u, v₁ ++ v₂, by simp [hs], hu, v₁, v₂, rfl, hv, hK⟩
  · intro u v groups hs hu
    refine hb _ k _ fun v₁ v₂ groups hv hq => ?_
    subst hv
    have := hk (u ++ v₁) v₂ groups (by simp [hs]) ⟨u, v₁, rfl, hu, hq⟩
    simpa using this

theorem tries_turns {step : Spot → Next → Option Spot} {P : Span} (h : Tries step P) (count : Nat) :
    Tries (turns step count) (P.turns count) := by
  induction count with
  | zero =>
    intro s k K hk
    have := hk [] s.rest s.groups rfl rfl
    simpa [turns, Span.turns] using this
  | succ count ih =>
    have hstep : turns step (count + 1) = fun s k => step s fun t => turns step count t k := rfl
    rw [hstep]
    exact h.comp ih

/-- what is left of a repetition: nothing after a turn that took nothing -/
def Span.more (P : Span) (most : Option Nat) (idle : Bool) : Span := fun past w rest =>
  if idle then w = [] else P.upTo most past w rest

theorem upTo_nil (P : Span) (most : Option Nat) (past rest : List Char) : P.upTo most past [] rest :=
  ⟨0, by simp, rfl⟩

/-- a turn and what is left of a repetition after it are part of the repetition -/
theorem upTo_of_more {P : Span} {most : Option Nat} (hmost : most ≠ some 0) {past u v rest : List Char} {idle : Bool}
    (hu : P past u (v ++ rest)) (hidle : idle = true → u = [])
    (hv : P.more (most.map (· - 1)) idle (u.reverse ++ past) v rest) : P.upTo most past (u ++ v) rest := by
  cases idle with
  | true =>
    obtain rfl : v = [] := hv
    rw [hidle rfl]
    exact upTo_nil P most past rest
  | false =>
    obtain ⟨count, hcount, ht⟩ := hv
    refine ⟨count + 1, fun m hm => ?_, u, v, rfl, hu, ht⟩
    have hle := hcount (m - 1) (by simp [Option.mem_def.1 hm])
    have hpos : m ≠ 0 := fun h0 => hmost (by rw [Option.mem_def.1 hm, h0])
    omega

/-- the second way is tried if the first one fails -/
theorem isSome_either (first second : Option Spot) :
    (match first with
      | some found => some found
      | none => second).isSome ↔ first.isSome ∨ second.isSome := by
  cases first <;> simp

/-- a turn that leaves as much as there was took nothing -/
theorem nil_of_idle {u v w : List Char} (h : w = u ++ v) (hl : (v.length == w.length) = true) : u = [] := by
  have hlen : v.length = w.length := by simpa using hl
  rw [h, List.length_append] at hlen
  exact List.eq_nil_of_length_eq_zero (by omega)

/-- the rounds of a repetition: with more fuel than there are characters left, no word is lost -/
theorem moreTurns_isSome {step : Spot → Next → Option Spot} {P : Span} (h : Tries step P) (reluctant : Bool)
    (fuel : Nat) (most : Option Nat) (idle : Bool) (s : Spot) (k : Next) (K : List Char → List Char → Prop)
    (hfuel : idle = false → s.rest.length < fuel)
    (hk : ∀ u v groups, s.rest = u ++ v → P.more most idle s.past u v →
      ((k ⟨u.reverse ++ s.past, v, groups⟩).isSome ↔ K u v)) :
    (moreTurns step reluctant fuel most idle s k).isSome ↔
      ∃ u v, s.rest = u ++ v ∧ P.more most idle s.past u v ∧ K u v := by
  induction fuel generalizing most idle s K with
  | zero =>
    obtain rfl : idle = true := by
      cases idle with
      | true => rfl
      | false => exact absurd (hfuel rfl) (by omega)
    have hstop := hk [] s.rest s.groups rfl rfl
    simpa [moreTurns, Span.more] using hstop
  | succ fuel ih =>
    have hstop : (k s).isSome ↔ K [] s.rest := by
      refine hk [] s.rest s.groups rfl ?_
      cases idle with
      | true => rfl
      | false => exact upTo_nil P most _ _
    by_cases hend : (idle || most == some 0) = true
    · -- no further turn: only the empty word is left
      have hword : ∀ u v, P.more most idle s.past u v ↔ u = [] := by
        intro u v
        cases idle with
        | true => simp [Span.more]
        | false =>
          have hm : most = some 0 := by simpa using hend
          simp only [Span.more, Bool.false_eq_true, if_false, Span.upTo, hm]
          constructor
          · rintro ⟨count, hcount, ht⟩
            obtain rfl : count = 0 := by simpa using hcount 0 rfl
            exact ht
          · rintro rfl; exact ⟨0, by simp, rfl⟩
      simp [moreTurns, hend, hword, hstop]
    · obtain ⟨hidle, hmost⟩ : idle = false ∧ most ≠ some 0 := by simpa using hend
      subst hidle
      -- one more turn, and then what is left of the repetition
      have hagain : (step s fun t => moreTurns step reluctant fuel (most.map (· - 1))
          (t.rest.length == s.rest.length) t k).isSome ↔
          ∃ u v, s.rest = u ++ v ∧ P s.past u v ∧
            ∃ v₁ v₂, v = v₁ ++ v₂ ∧ P.more (most.map (· - 1)) (v.length == s.rest.length) (u.reverse ++ s.past) v₁ v₂ ∧
              K (u ++ v₁) v₂ := by
        refine h s _ _ fun u v groups hs hu => ?_
        have hlen : s.rest.length = u.length + v.length := by rw [hs, List.length_append]
        refine ih _ _ ⟨u.reverse ++ s.past, v, groups⟩ _ (fun hbusy => ?_) fun v₁ v₂ groups hv hmore => ?_
        · have hne : v.length ≠ s.rest.length := by simpa using hbusy
          have := hfuel rfl
          simp only; omega
        · simp only at hv; subst hv
          have hup : P.upTo most s.past (u ++ v₁) v₂ := upTo_of_more hmost hu (nil_of_idle hs) hmore
          simpa using hk (u ++ v₁) v₂ groups (by simp [hs]) hup
      have hsplit : (moreTurns step reluctant (fuel + 1) most false s k).isSome ↔
          (step s fun t => moreTurns step reluctant fuel (most.map (· - 1))
            (t.rest.length == s.rest.length) t k).isSome ∨ (k s).isSome := by
        simp only [moreTurns, hend, Bool.false_eq_true, if_false]
        split_ifs
        · exact (isSome_either _ _).trans or_comm
        · exact isSome_either _ _
      rw [hsplit, hagain, hstop]
      constructor
      · rintro (⟨u, _, hs, hu, v₁, v₂, rfl, hv, hK⟩ | hK)
        · exact ⟨u ++ v₁, v₂, by simp [hs], upTo_of_more hmost hu (nil_of_idle hs) hv, hK⟩
        · exact ⟨[], s.rest, rfl, upTo_nil P most _ _, hK⟩
      · rintro ⟨w, rest, hs, ⟨count, hcount, ht⟩, hK⟩
        rcases turns_busy P count s.past w rest ht with rfl | ⟨fewer, u, v, hlt, hne, rfl, hu, hv⟩
        · exact Or.inr (by rw [hs]; exact hK)
        · refine Or.inl ⟨u, v ++ rest, by simp [hs], hu, v, rest, rfl, ?_, hK⟩
          have hbusy : ((v ++ rest).length == s.rest.length) = false := by
            have hpos := List.length_pos_iff.2 hne
            simp [hs]; omega
          rw [hbusy]
          refine ⟨fewer, fun m hm => ?_, hv⟩
          obtain ⟨m', hm', rfl⟩ := Option.mem_map.1 hm
          have := hcount m' hm'
          omega

theorem tries_moreTurns {step : Spot → Next → Option Spot} {P : Span} (h : Tries step P) (reluctant : Bool)
    (most : Option Nat) :
    Tries (fun s k => moreTurns step reluctant (s.rest.length + 2) most false s k) (P.upTo most) := by
  intro s k K hk
  exact moreTurns_isSome h reluctant _ most false s k K (fun _ => by omega) hk

theorem tries_rep {p : Pattern} (h : Tries (run p) (Takes p)) (least : Nat) (most : Option Nat) {greed : Greed}
    (hgreed : greed ≠ .possessive) : Tries (run (.rep p least most greed)) (Takes (.rep p least most greed)) := by
  cases greed with
  | greedy =>
    simpa only [run, Takes] using (tries_turns h least).comp (tries_moreTurns h false (most.map (· - least)))
  | reluctant =>
    simpa only [run, Takes] using (tries_turns h least).comp (tries_moreTurns h true (most.map (· - least)))
  | possessive => exact absurd rfl hgreed

/-- the places that a test allows do not depend on the groups -/
theorem holds_groups (place : Anchor) (past rest : List Char) (groups : List (Nat × List Char)) :
    place.holds ⟨past, rest, groups⟩ = place.holds ⟨past, rest, []⟩ := by
  cases place <;> rfl

/-- **The matcher tries exactly the words of a plain pattern.** -/
theorem tries_run (p : Pattern) (hp : p.isPlain = true) : Tries (run p) (Takes p) := by
  induction p with
  | empty =>
    intro s k K hk
    have := hk [] s.rest s.groups rfl rfl
    simpa [run, Takes] using this
  | char set =>
    intro s k K hk
    obtain ⟨past, rest, groups⟩ := s
    cases rest with
    | nil => simp [run, Takes]
    | cons c rest =>
      by_cases hc : set.holds c = true
      · have := hk [c] rest groups rfl ⟨c, hc, rfl⟩
        simp only [run, hc, if_true]
        rw [show (⟨c :: past, rest, groups⟩ : Spot) = ⟨[c].reverse ++ past, rest, groups⟩ from rfl, this]
        constructor
        · intro hK; exact ⟨[c], rest, rfl, ⟨c, hc, rfl⟩, hK⟩
        · rintro ⟨_, v, hs, ⟨d, -, rfl⟩, hK⟩
          obtain ⟨rfl, rfl⟩ : c = d ∧ rest = v := by simpa using hs
          exact hK
      · simp only [run, hc, Bool.false_eq_true, if_false, Option.isSome_none, false_iff]
        rintro ⟨_, v, hs, ⟨d, hd, rfl⟩, -⟩
        obtain ⟨rfl, -⟩ : c = d ∧ rest = v := by simpa using hs
        exact hc hd
  | seq p q ihp ihq =>
    obtain ⟨h1, h2⟩ : p.isPlain = true ∧ q.isPlain = true := by simpa [isPlain] using hp
    simpa only [run, Takes] using (ihp h1).comp (ihq h2)
  | alt p q ihp ihq =>
    obtain ⟨h1, h2⟩ : p.isPlain = true ∧ q.isPlain = true := by simpa [isPlain] using hp
    intro s k K hk
    have hp := ihp h1 s k K fun u v groups hs hu => hk u v groups hs (Or.inl hu)
    have hq := ihq h2 s k K fun u v groups hs hu => hk u v groups hs (Or.inr hu)
    have hrun : (run (.alt p q) s k).isSome ↔ (run p s k).isSome ∨ (run q s k).isSome := by
      simp only [run]
      exact isSome_either _ _
    rw [hrun, hp, hq]
    constructor
    · rintro (⟨u, v, hs, hu, hK⟩ | ⟨u, v, hs, hu, hK⟩)
      · exact ⟨u, v, hs, Or.inl hu, hK⟩
      · exact ⟨u, v, hs, Or.inr hu, hK⟩
    · rintro ⟨u, v, hs, hu | hu, hK⟩
      · exact Or.inl ⟨u, v, hs, hu, hK⟩
      · exact Or.inr ⟨u, v, hs, hu, hK⟩
  | group number p ih =>
    intro s k K hk
    simp only [run]
    exact ih hp s _ K fun u v groups hs hu => hk u v _ hs hu
  | rep p least most greed ih =>
    obtain ⟨h1, h2⟩ : p.isPlain = true ∧ greed ≠ .possessive := by simpa [isPlain] using hp
    exact tries_rep (ih h1) least most h2
  | anchor place =>
    intro s k K hk
    have hplace : place.holds s = place.holds ⟨s.past, s.rest, []⟩ := holds_groups place s.past s.rest s.groups
    by_cases h : place.holds s = true
    · have := hk [] s.rest s.groups rfl ⟨rfl, hplace ▸ h⟩
      simp only [run, h, if_true, Takes]
      rw [show s = ⟨[].reverse ++ s.past, s.rest, s.groups⟩ from rfl, this]
      constructor
      · intro hK; exact ⟨[], s.rest, rfl, ⟨rfl, hplace ▸ h⟩, hK⟩
      · rintro ⟨_, v, hs, ⟨rfl, -⟩, hK⟩
        obtain rfl : s.rest = v := hs
        exact hK
    · simp only [run, h, Bool.false_eq_true, if_false, Option.isSome_none, false_iff, Takes]
      rintro ⟨_, v, hs, ⟨rfl, hv⟩, -⟩
      obtain rfl : s.rest = v := hs
      exact h (hplace.trans hv)
  | ahead _ _ _ => simp [isPlain] at hp
  | behind _ _ _ _ => simp [isPlain] at hp
  | again _ _ _ => simp [isPlain] at hp
  | ifGroup _ _ _ _ _ => simp [isPlain] at hp
  | atomic _ _ => simp [isPlain] at hp

/-- **Whole matches.** A plain pattern matches a whole text exactly if it takes it with nothing before or after. -/
theorem fullMatches_iff (p : Pattern) (hp : p.isPlain = true) (t : String) :
    p.fullMatches t = true ↔ p.Takes [] t.toList [] := by
  unfold fullMatches matchesChars
  rw [tries_run p hp (Spot.start t.toList) atEnd (fun _ v => v = [])]
  · simp [Spot.start]
  · intro u v groups _ _
    cases v <;> simp [atEnd]

/-! ## Sequences -/

theorem takes_sequence_cons (p : Pattern) (ps : List Pattern) :
    Takes (sequence (p :: ps)) = Span.seq (Takes p) (Takes (sequence ps)) := by
  cases ps with
  | nil => funext past w rest; simp [sequence, Span.seq, Takes]
  | cons q qs => rfl

theorem takes_sequence_append (ps qs : List Pattern) :
    Takes (sequence (ps ++ qs)) = Span.seq (Takes (sequence ps)) (Takes (sequence qs)) := by
  induction ps with
  | nil => exact (seq_nil _).symm
  | cons p ps ih => rw [List.cons_append, takes_sequence_cons, ih, takes_sequence_cons, seq_assoc]

end ClassNaming.Pattern
