/-
The words of a class string.

A word begins where a character that is not blank stands first or behind a blank, and goes on up to the next blank.
Cutting at every blank and leaving out the empty pieces finds these words and no others, however many blanks stand
between them or around them.

- `words_append_blank`: the words on both sides of a blank. The other equations come of this one.
- `words_eq_runsAfter`: the words are the longest runs without blanks, in the order of the text.
- `words_spaced`: words that are written in a row are read back.
- `classString_exact`: what this comes to for a class string.
-/
import ClassNaming.Proofs.Extract.Lines
import ClassNaming.Proofs.Extract.Runs

namespace ClassNaming.Extract

/-- a character of a word -/
def isInk (c : Char) : Bool := !Text.isBlank c

/-- a word begins where no character of a word stands before -/
def wordEdge (before : Option Char) (c : Char) : Bool := before.all Text.isBlank && isInk c

theorem isInk_iff {c : Char} : isInk c = true ↔ Text.isBlank c = false := by
  simp [isInk]

/-! ## Blanks and words -/

/-- **The words on both sides of a blank.** -/
theorem words_append_blank {b : Char} (hb : Text.isBlank b = true) (xs ys : List Char) :
    words (xs ++ b :: ys) = words xs ++ words ys := by
  simp only [words, pieces_eq_splitOnP, List.splitOnP_append_cons xs ys hb, List.filter_append]

theorem words_cons_blank {b : Char} (hb : Text.isBlank b = true) (cs : List Char) : words (b :: cs) = words cs :=
  words_append_blank hb [] cs

/-- blanks in front of a text are in no word -/
theorem words_blanks_append {blanks : List Char} (h : ∀ c ∈ blanks, Text.isBlank c = true) (cs : List Char) :
    words (blanks ++ cs) = words cs := by
  induction blanks with
  | nil => rfl
  | cons b blanks ih =>
    obtain ⟨hb, hblanks⟩ := List.forall_mem_cons.1 h
    rw [List.cons_append, words_cons_blank hb, ih hblanks]

/-- blanks behind a text are in no word -/
theorem words_append_blanks {blanks : List Char} (h : ∀ c ∈ blanks, Text.isBlank c = true) (cs : List Char) :
    words (cs ++ blanks) = words cs := by
  cases blanks with
  | nil => rw [List.append_nil]
  | cons b blanks =>
    obtain ⟨hb, hblanks⟩ := List.forall_mem_cons.1 h
    have hnone : words blanks = [] := by
      rw [← List.append_nil blanks, words_blanks_append hblanks]
      rfl
    rw [words_append_blank hb, hnone, List.append_nil]

theorem words_single {word : List Char} (hne : word ≠ []) (h : ∀ c ∈ word, Text.isBlank c = false) :
    words word = [word] := by
  rw [words, pieces_eq_splitOnP, List.splitOnP_eq_singleton h]
  exact List.filter_eq_self.2 (by simpa using hne)

/-- a word goes on up to the next blank -/
theorem words_cons_ink {c : Char} (hc : isInk c = true) (cs : List Char) :
    words (c :: cs) = (c :: cs.takeWhile isInk) :: words (cs.dropWhile isInk) := by
  have hword : words (c :: cs.takeWhile isInk) = [c :: cs.takeWhile isInk] := by
    refine words_single (List.cons_ne_nil _ _) (List.forall_mem_cons.2 ⟨isInk_iff.1 hc, ?_⟩)
    exact fun d hd => isInk_iff.1 (List.all_eq_true.1 List.all_takeWhile d hd)
  have hsplit : c :: cs = (c :: cs.takeWhile isInk) ++ cs.dropWhile isInk := by
    rw [List.cons_append, List.takeWhile_append_dropWhile]
  rw [hsplit]
  cases hrest : cs.dropWhile isInk with
  | nil => rw [List.append_nil, hword]; rfl
  | cons b more =>
    have hstop : isInk b = false := head_dropWhile b (by rw [hrest]; rfl)
    have hb : Text.isBlank b = true := by simpa [isInk] using hstop
    rw [words_append_blank hb, hword, words_cons_blank hb, List.singleton_append]

/-! ## The longest runs without blanks -/

/-- the words of what is left of a text, with the character before it: a word that has begun is not left -/
theorem words_after (before : Char) (cs : List Char) :
    runsAfter isInk wordEdge (some before) cs =
      words (if Text.isBlank before then cs else cs.dropWhile isInk) := by
  induction cs generalizing before with
  | nil => split_ifs <;> rfl
  | cons c cs ih =>
    rw [runsAfter, ih c]
    by_cases hbefore : Text.isBlank before <;> by_cases hc : Text.isBlank c
    · -- nothing begins at a blank
      simp [wordEdge, isInk, hbefore, hc, words_cons_blank]
    · have hink : isInk c = true := isInk_iff.2 (by simpa using hc)
      simp [wordEdge, hbefore, hc, hink, words_cons_ink]
    · simp [wordEdge, isInk, hbefore, hc, words_cons_blank]
    · -- the word goes on
      simp [wordEdge, isInk, hbefore, hc]

/-- **The words are the longest runs without blanks.** -/
theorem words_eq_runsAfter (cs : List Char) : words cs = runsAfter isInk wordEdge none cs := by
  have hspace : Text.isBlank ' ' = true := by decide
  have hfirst : ∀ c ∈ cs.head?, wordEdge none c = wordEdge (some ' ') c := by
    intro c _
    simp [wordEdge, hspace]
  rw [runsAfter_congr hfirst, words_after, if_pos hspace]

/-! ## Words in a row -/

/-- any white space -/
abbrev Blanks := { cs : List Char // ∀ c ∈ cs, Text.isBlank c = true }

/-- the white space between two words -/
abbrev Space := { cs : List Char // cs ≠ [] ∧ ∀ c ∈ cs, Text.isBlank c = true }

abbrev Word := { cs : List Char // cs ≠ [] ∧ ∀ c ∈ cs, Text.isBlank c = false }

/-- words with white space between them -/
inductive Spaced where
  | nil
  | last (word : Word)
  | more (word : Word) (space : Space) (rest : Spaced)

namespace Spaced

/-- the row written down -/
def text : Spaced → List Char
  | nil => []
  | last word => word.1
  | more word space rest => word.1 ++ (space.1 ++ rest.text)

def words : Spaced → List (List Char)
  | nil => []
  | last word => [word.1]
  | more word _ rest => word.1 :: rest.words

end Spaced

/-- **Words in a row are read back.** -/
theorem words_spaced (row : Spaced) : words row.text = row.words := by
  induction row with
  | nil => rfl
  | last word => exact words_single word.2.1 word.2.2
  | more word space rest ih =>
    obtain ⟨b, blanks, hspace⟩ := List.exists_cons_of_ne_nil space.2.1
    obtain ⟨hb, hblanks⟩ := List.forall_mem_cons.1 (hspace ▸ space.2.2)
    rw [Spaced.text, hspace, List.cons_append, words_append_blank hb, words_blanks_append hblanks,
      words_single word.2.1 word.2.2, ih]
    rfl

/-! ## Class strings -/

theorem toList_classString (s : String) : (classString s).map String.toList = words s.toList := by
  simp [classString, Function.comp_def]

/-- **The tokens of a class string are its words.** They are the longest runs without blanks, each where it begins, in
the order of the text, so none is empty and none has a blank in it. A blank ends what is before it: the tokens on its
two sides come one after the other. And words in a row are read back, whatever white space is between them and around
them. -/
theorem classString_exact :
    (∀ s runs, RunsAt isInk wordEdge s.toList runs ↔ runs = (classString s).map String.toList) ∧
    (∀ s, ∀ token ∈ classString s, token ≠ "" ∧ ∀ c ∈ token.toList, Text.isBlank c = false) ∧
    (∀ s t (blank : Char), Text.isBlank blank = true →
      classString (s ++ String.singleton blank ++ t) = classString s ++ classString t) ∧
    ∀ (lead trail : Blanks) (row : Spaced),
      classString (String.ofList (lead.1 ++ row.text ++ trail.1)) = row.words.map String.ofList := by
  refine ⟨fun s runs => ?_, fun s token htoken => ?_, fun s t blank hblank => ?_, fun lead trail row => ?_⟩
  · rw [runsAt_iff, toList_classString, words_eq_runsAfter]
  · obtain ⟨word, hword, rfl⟩ := List.mem_map.1 htoken
    rw [words_eq_runsAfter] at hword
    obtain ⟨hne, hink⟩ := run_of_mem (by simp [wordEdge]) hword
    rw [String.toList_ofList]
    exact ⟨by simpa using hne, fun c hc => isInk_iff.1 (hink c hc)⟩
  · simp only [classString, String.toList_append, String.toList_singleton, List.append_assoc, List.singleton_append,
      words_append_blank hblank, List.map_append]
  · rw [classString, String.toList_ofList, words_append_blanks trail.2, words_blanks_append lead.2, words_spaced]

/-- a tab and a space inside a class string, and a wide space behind it -/
theorem classString_exact_wide :
    "b" ∈ classString "a\t b" ∧ ("b" ≠ "" ∧ ∀ c ∈ "b".toList, Text.isBlank c = false) ∧
      Text.isBlank '\u2003' = true ∧ classString ("a\t b" ++ String.singleton '\u2003' ++ "c") = ["a", "b", "c"] := by
  obtain ⟨-, htokens, hblank, -⟩ := classString_exact
  have hmem : "b" ∈ classString "a\t b" := by decide +kernel
  have hwide : Text.isBlank '\u2003' = true := by decide
  refine ⟨hmem, htokens _ _ hmem, hwide, ?_⟩
  rw [hblank _ _ _ hwide]
  decide +kernel

end ClassNaming.Extract
