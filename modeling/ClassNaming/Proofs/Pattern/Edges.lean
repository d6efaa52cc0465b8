/-
Characters that every word of a pattern has, and characters that no word has twice in a row.

Both are decided by looking at the pattern once. A repeated character may come about where two words meet, so the second
check keeps an account of what a word may be at its edges: empty, or with the character first or last.

- `mem_of_fullMatches`: a text that is a whole match has each character that the pattern needs.
- `edges_fit`: the account of the edges is one of every word.
- `apart_of_fullMatches`: no whole match has a character twice in a row that the pattern keeps apart.
-/
import ClassNaming.Proofs.Pattern.Words

namespace ClassNaming.Pattern

/-! ## Characters that are needed -/

/-- every word has the character -/
def needs (c : Char) : Pattern → Bool
  | .char set => decide (Pattern.char set = ofChar c)
  | .seq p q => p.needs c || q.needs c
  | .alt p q => p.needs c && q.needs c
  | .group _ p => p.needs c
  | .rep p least _ _ => least != 0 && p.needs c
  | .empty | .anchor _ | .ahead _ _ | .behind _ _ _ | .again _ _ _ | .ifGroup _ _ _ | .atomic _ => false

theorem mem_of_takes {p : Pattern} {c : Char} (h : p.needs c = true) (past w rest : List Char)
    (hw : p.Takes past w rest) : c ∈ w := by
  induction p generalizing past w rest with
  | char set =>
    obtain ⟨d, hd, rfl⟩ := hw
    obtain rfl : set = ⟨false, [.one c.toNat], false, false⟩ := by simpa [needs, ofChar] using h
    obtain rfl : d = c := by simpa [CharSet.holds, SetItem.covers, Char.toNat_inj] using hd
    exact List.mem_singleton_self d
  | seq p q ihp ihq =>
    obtain ⟨u, v, rfl, hu, hv⟩ := hw
    have hneeds : p.needs c = true ∨ q.needs c = true := by simpa [needs] using h
    rcases hneeds with hp | hq
    · exact List.mem_append_left v (ihp hp _ _ _ hu)
    · exact List.mem_append_right u (ihq hq _ _ _ hv)
  | alt p q ihp ihq =>
    obtain ⟨hp, hq⟩ : p.needs c = true ∧ q.needs c = true := by simpa [needs] using h
    rcases hw with hw | hw
    · exact ihp hp _ _ _ hw
    · exact ihq hq _ _ _ hw
  | group _ p ih => exact ih h past w rest hw
  | rep p least most greed ih =>
    obtain ⟨hleast, hp⟩ : least ≠ 0 ∧ p.needs c = true := by simpa [needs] using h
    obtain ⟨u, v, rfl, hu, -⟩ := hw
    obtain ⟨count, rfl⟩ := Nat.exists_eq_succ_of_ne_zero hleast
    -- the first turn has it
    obtain ⟨a, b, rfl, ha, -⟩ := hu
    exact List.mem_append_left v (List.mem_append_left b (ih hp _ _ _ ha))
  | _ => simp [needs] at h

theorem mem_of_fullMatches {p : Pattern} {c : Char} (hplain : p.isPlain = true) (h : p.needs c = true) {t : String}
    (ht : p.fullMatches t = true) : c ∈ t.toList :=
  mem_of_takes h [] t.toList [] ((fullMatches_iff p hplain t).1 ht)

/-! ## Edges of words -/

/-- what words may be at their edges: empty, or with a given character first or last -/
structure Edges where
  blank : Bool
  starts : Bool
  ends : Bool

namespace Edges

/-- one word after the other -/
def seq (a b : Edges) : Edges :=
  ⟨a.blank && b.blank, a.starts || (a.blank && b.starts), b.ends || (b.blank && a.ends)⟩

/-- one of two words -/
def alt (a b : Edges) : Edges := ⟨a.blank || b.blank, a.starts || b.starts, a.ends || b.ends⟩

/-- `least` words and perhaps more -/
def many (least : Nat) (a : Edges) : Edges := ⟨least == 0 || a.blank, a.starts, a.ends⟩

/-- the account is right for a word -/
structure Fit (c : Char) (a : Edges) (w : List Char) : Prop where
  blank : w = [] → a.blank = true
  starts : w.head? = some c → a.starts = true
  ends : w.getLast? = some c → a.ends = true

theorem fit_nil {c : Char} {a : Edges} (h : a.blank = true) : a.Fit c [] := ⟨fun _ => h, by simp, by simp⟩

theorem Fit.seq {c : Char} {a b : Edges} {u v : List Char} (hu : a.Fit c u) (hv : b.Fit c v) :
    (a.seq b).Fit c (u ++ v) where
  blank h := by
    obtain ⟨hu', hv'⟩ := List.append_eq_nil_iff.1 h
    simp [Edges.seq, hu.blank hu', hv.blank hv']
  starts h := by
    cases u with
    | nil => simp [Edges.seq, hu.blank rfl, hv.starts (by simpa using h)]
    | cons d u => simp [Edges.seq, hu.starts (by simpa using h)]
  ends h := by
    by_cases hnil : v = []
    · subst hnil
      simp [Edges.seq, hv.blank rfl, hu.ends (by simpa using h)]
    · simp [Edges.seq, hv.ends (by simpa [List.getLast?_append_of_ne_nil u hnil] using h)]

theorem Fit.alt {c : Char} {a b : Edges} {w : List Char} (h : a.Fit c w ∨ b.Fit c w) : (a.alt b).Fit c w := by
  rcases h with h | h
  · exact ⟨fun hw => by simp [Edges.alt, h.blank hw], fun hw => by simp [Edges.alt, h.starts hw],
      fun hw => by simp [Edges.alt, h.ends hw]⟩
  · exact ⟨fun hw => by simp [Edges.alt, h.blank hw], fun hw => by simp [Edges.alt, h.starts hw],
      fun hw => by simp [Edges.alt, h.ends hw]⟩

/-- a word more -/
theorem Fit.cons_many {c : Char} {a : Edges} {count : Nat} {u v : List Char} (hu : a.Fit c u)
    (hv : (a.many count).Fit c v) : (a.many (count + 1)).Fit c (u ++ v) := by
  have h := hu.seq hv
  refine ⟨fun hw => ?_, fun hw => ?_, fun hw => ?_⟩
  · have hblank : a.blank = true := hu.blank (List.append_eq_nil_iff.1 hw).1
    simp [many, hblank]
  · have hstarts : a.starts = true ∨ a.blank = true ∧ a.starts = true := by
      simpa [Edges.seq, many] using h.starts hw
    exact hstarts.elim id And.right
  · have hends : a.ends = true ∨ (count = 0 ∨ a.blank = true) ∧ a.ends = true := by
      simpa [Edges.seq, many] using h.ends hw
    exact hends.elim id And.right

end Edges

/-- the edges of the words of a pattern -/
def edges (c : Char) : Pattern → Edges
  | .empty | .anchor _ => ⟨true, false, false⟩
  | .char set => ⟨false, set.holds c, set.holds c⟩
  | .seq p q => (p.edges c).seq (q.edges c)
  | .alt p q => (p.edges c).alt (q.edges c)
  | .group _ p => p.edges c
  | .rep p least _ _ => (p.edges c).many least
  | .ahead _ _ | .behind _ _ _ | .again _ _ _ | .ifGroup _ _ _ | .atomic _ => ⟨true, true, true⟩

theorem fit_turns {P : Span} {c : Char} {a : Edges} (hP : ∀ past w rest, P past w rest → a.Fit c w) (count : Nat)
    (past w rest : List Char) (h : P.turns count past w rest) : (a.many count).Fit c w := by
  induction count generalizing past w rest with
  | zero =>
    obtain rfl : w = [] := h
    exact Edges.fit_nil rfl
  | succ count ih =>
    obtain ⟨u, v, rfl, hu, hv⟩ := h
    exact (hP _ _ _ hu).cons_many (ih _ _ _ hv)

/-- the words of a repetition are so many turns, one after the other -/
theorem exists_turns_of_rep {P : Span} {least : Nat} {most : Option Nat} {past w rest : List Char}
    (h : Span.seq (P.turns least) (P.upTo most) past w rest) : ∃ count, P.turns (least + count) past w rest := by
  obtain ⟨u, v, rfl, hu, count, -, hv⟩ := h
  exact ⟨count, by rw [turns_add]; exact ⟨u, v, rfl, hu, hv⟩⟩

/-- **The edges of a word** are those of the pattern that takes it. -/
theorem edges_fit (p : Pattern) (c : Char) (past w rest : List Char) (hw : p.Takes past w rest) :
    (p.edges c).Fit c w := by
  induction p generalizing past w rest with
  | empty =>
    obtain rfl : w = [] := hw
    exact Edges.fit_nil rfl
  | anchor place =>
    obtain ⟨rfl, -⟩ := hw
    exact Edges.fit_nil rfl
  | char set =>
    obtain ⟨d, hd, rfl⟩ := hw
    refine ⟨by simp, fun h => ?_, fun h => ?_⟩ <;>
    · obtain rfl : d = c := by simpa using h
      exact hd
  | seq p q ihp ihq =>
    obtain ⟨u, v, rfl, hu, hv⟩ := hw
    exact (ihp _ _ _ hu).seq (ihq _ _ _ hv)
  | alt p q ihp ihq => exact .alt (hw.imp (ihp _ _ _) (ihq _ _ _))
  | group _ p ih => exact ih past w rest hw
  | rep p least most greed ih =>
    obtain ⟨count, hturns⟩ := exists_turns_of_rep hw
    have h := fit_turns ih _ _ _ _ hturns
    refine ⟨fun hw => ?_, h.starts, h.ends⟩
    have hblank := h.blank hw
    simp only [edges, Edges.many, Bool.or_eq_true, beq_iff_eq] at hblank ⊢
    exact hblank.imp_left fun hzero => by omega
  | _ => exact absurd hw id

/-! ## Characters that are kept apart -/

/-- the character does not stand twice in a row -/
def Apart (c : Char) (w : List Char) : Prop := w.IsChain fun a b => ¬ (a = c ∧ b = c)

/-- no word has the character twice in a row -/
def apart (c : Char) : Pattern → Bool
  | .empty | .anchor _ | .char _ => true
  | .seq p q => p.apart c && q.apart c && !((p.edges c).ends && (q.edges c).starts)
  | .alt p q => p.apart c && q.apart c
  | .group _ p => p.apart c
  | .rep p _ _ _ => p.apart c && !((p.edges c).ends && (p.edges c).starts)
  | .ahead _ _ | .behind _ _ _ | .again _ _ _ | .ifGroup _ _ _ | .atomic _ => false

theorem Apart.append {c : Char} {a b : Edges} {u v : List Char} (hu : Apart c u) (hv : Apart c v) (hau : a.Fit c u)
    (hbv : b.Fit c v) (h : (a.ends && b.starts) = false) : Apart c (u ++ v) := by
  refine List.isChain_append.2 ⟨hu, hv, ?_⟩
  rintro x hx y hy ⟨rfl, rfl⟩
  rw [hau.ends hx, hbv.starts hy] at h
  cases h

theorem apart_turns {P : Span} {c : Char} {a : Edges} (hfit : ∀ past w rest, P past w rest → a.Fit c w)
    (hP : ∀ past w rest, P past w rest → Apart c w) (h : (a.ends && a.starts) = false) (count : Nat)
    (past w rest : List Char) (hw : P.turns count past w rest) : Apart c w := by
  induction count generalizing past w rest with
  | zero =>
    obtain rfl : w = [] := hw
    exact List.isChain_nil
  | succ count ih =>
    obtain ⟨u, v, rfl, hu, hv⟩ := hw
    exact (hP _ _ _ hu).append (ih _ _ _ hv) (hfit _ _ _ hu) (fit_turns hfit _ _ _ _ hv) h

theorem apart_of_takes {p : Pattern} {c : Char} (h : p.apart c = true) (past w rest : List Char)
    (hw : p.Takes past w rest) : Apart c w := by
  induction p generalizing past w rest with
  | empty =>
    obtain rfl : w = [] := hw
    exact List.isChain_nil
  | anchor place =>
    obtain ⟨rfl, -⟩ := hw
    exact List.isChain_nil
  | char set =>
    obtain ⟨d, -, rfl⟩ := hw
    exact List.isChain_singleton d
  | seq p q ihp ihq =>
    obtain ⟨u, v, rfl, hu, hv⟩ := hw
    simp only [apart, Bool.and_eq_true, Bool.not_eq_true'] at h
    obtain ⟨⟨hp, hq⟩, hseam⟩ := h
    exact (ihp hp _ _ _ hu).append (ihq hq _ _ _ hv) (edges_fit p c _ _ _ hu) (edges_fit q c _ _ _ hv) hseam
  | alt p q ihp ihq =>
    obtain ⟨hp, hq⟩ : p.apart c = true ∧ q.apart c = true := by simpa [apart] using h
    rcases hw with hw | hw
    · exact ihp hp _ _ _ hw
    · exact ihq hq _ _ _ hw
  | group _ p ih => exact ih h past w rest hw
  | rep p least most greed ih =>
    simp only [apart, Bool.and_eq_true, Bool.not_eq_true'] at h
    obtain ⟨hp, hseam⟩ := h
    obtain ⟨count, hturns⟩ := exists_turns_of_rep hw
    exact apart_turns (edges_fit p c) (ih hp) hseam _ _ _ _ hturns
  | _ => simp [apart] at h

/-- **No whole match has a character twice in a row that the pattern keeps apart.** -/
theorem apart_of_fullMatches {p : Pattern} {c : Char} (hplain : p.isPlain = true) (h : p.apart c = true) {t : String}
    (ht : p.fullMatches t = true) : Apart c t.toList :=
  apart_of_takes h [] t.toList [] ((fullMatches_iff p hplain t).1 ht)

end ClassNaming.Pattern
