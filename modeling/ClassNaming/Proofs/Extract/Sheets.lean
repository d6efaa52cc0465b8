/-
Nested rules as a tree, and their flat selectors.

A `Sheet` is a sequence of declaration lines and rules, and a rule has a list of selectors and a body that is a sheet
again. `Sheet.lines` writes it down with any layout: blanks around commas, any indentation, the opening brace on the
line of the selectors or alone on the next one. `Sheet.classes` gives the classes of the tree in pre-order.

- `opening?_header`: the line of a rule's selectors is read back as those selectors.
- `foldl_lines`: reading the lines of a sheet leaves the open rules as they were and records the sheet's classes. The
  innermost open selector is the parent of the sheet's rules: that ties the stack to the path in the tree.
- `nested_text`: the classes of a sheet written down are its classes in pre-order.
-/
import ClassNaming.Proofs.Extract.Lines
import ClassNaming.Proofs.Extract.Names

namespace ClassNaming.Extract

/-! ## Selectors -/

/-- blanks on one line -/
abbrev Gap := { cs : List Char // ∀ c ∈ cs, Text.isBlank c = true ∧ c ≠ '\n' }

/-- letters, digits, underscores and hyphens -/
abbrev NameTail := { cs : List Char // ∀ c ∈ cs, isNamePart c = true }

/-- what a literal selector may start with -/
inductive Mark where
  | dot
  | hash
  | bare
deriving DecidableEq, Repr

def Mark.text : Mark → List Char
  | .dot => ['.']
  | .hash => ['#']
  | .bare => []

/-- a selector of a rule: a name, or what is put behind the selector of the enclosing rule -/
inductive Selector where
  | literal (mark : Mark) (first : { c : Char // isNameStart c = true }) (rest : NameTail)
  | nested (rest : NameTail)

namespace Selector

def text : Selector → List Char
  | .literal mark first rest => mark.text ++ first.1 :: rest.1
  | .nested rest => '&' :: rest.1

/-- the selector inside a rule whose first selector is `parent` -/
def resolved (parent : List Char) : Selector → List Char
  | .literal mark first rest => mark.text ++ first.1 :: rest.1
  | .nested rest => parent ++ rest.1

end Selector

/-- the selectors that start with a dot, without it -/
def dotted (selectors : List (List Char)) : List (List Char) :=
  (selectors.filter (·.head? == some '.')).map List.tail

/-! ## Sheets -/

/-- where the opening brace of a rule stands -/
inductive Brace where
  /-- on the line of the selectors, after blanks and before others -/
  | sameLine (before after : Gap)
  /-- alone on the next line, with blanks after the selectors -/
  | nextLine (trailing : Gap) (line : { l : List Char // Text.trim l = ['\x7b'] ∧ '\n' ∉ l })

/-- the selectors of a rule with their layout: indentation, and the blanks before and after each comma -/
structure Header where
  indent : Gap
  first : Selector
  more : List (Gap × Gap × Selector)
  brace : Brace

/-- a line that neither opens nor closes a rule -/
abbrev Declaration := { l : List Char // '\n' ∉ l ∧ '\x7d' ∉ l ∧ opening? (Text.trim l) = none }

/-- a line with a closing brace and blanks only -/
abbrev Closing := { l : List Char // Text.trim l = ['\x7d'] ∧ '\n' ∉ l }

/-- declaration lines and rules, one after the other -/
inductive Sheet where
  | nil
  | declaration (line : Declaration) (rest : Sheet)
  | rule (header : Header) (body : Sheet) (close : Closing) (rest : Sheet)

namespace Header

def selectors (h : Header) : List Selector := h.first :: h.more.map (·.2.2)

/-- the selectors after the first, each behind its comma -/
def moreText : List (Gap × Gap × Selector) → List Char
  | [] => []
  | (before, after, s) :: more => before.1 ++ ',' :: (after.1 ++ s.text ++ moreText more)

/-- the selectors joined by commas -/
def text (h : Header) : List Char := h.first.text ++ moreText h.more

def lines (h : Header) : List (List Char) :=
  match h.brace with
  | .sameLine before after => [h.indent.1 ++ h.text ++ before.1 ++ '\x7b' :: after.1]
  | .nextLine trailing line => [h.indent.1 ++ h.text ++ trailing.1, line.1]

end Header

namespace Sheet

def lines : Sheet → List (List Char)
  | .nil => []
  | .declaration line rest => line.1 :: rest.lines
  | .rule header body close rest => header.lines ++ body.lines ++ close.1 :: rest.lines

/-- the sheet written down -/
def text (s : Sheet) : String := String.ofList (joined s.lines)

/-- the classes of a sheet inside a rule whose first selector is `parent`, in pre-order -/
def classes (parent : List Char) : Sheet → List (List Char)
  | .nil => []
  | .declaration _ rest => rest.classes parent
  | .rule header body _ rest =>
    dotted (header.selectors.map (Selector.resolved parent)) ++ body.classes (header.first.resolved parent)
      ++ rest.classes parent

end Sheet

/-! ## Reading the selectors of a rule -/

/-- a name ends before a character that is no part of one -/
theorem bareSelector?_append {c : Char} (hc : isSelectorStart c = true) {name rest : List Char}
    (hname : ∀ d ∈ name, isNamePart d = true) (hrest : ∀ d ∈ rest.head?, isNamePart d = false) :
    bareSelector? (c :: (name ++ rest)) = some (c :: name, rest) := by
  rw [bareSelector?, if_pos hc, takeWhile_append_stop hname hrest, dropWhile_append_stop hname hrest]

theorem not_mark_of_start {c : Char} (h : isSelectorStart c = true) : (c == '.' || c == '#') = false := by
  rw [Bool.eq_false_iff]
  intro hc
  have : c = '.' ∨ c = '#' := by simpa using hc
  rcases this with rfl | rfl <;> exact absurd h (by decide)

theorem selectorPart?_append (s : Selector) {rest : List Char} (hrest : ∀ d ∈ rest.head?, isNamePart d = false) :
    selectorPart? (s.text ++ rest) = some (s.text, rest) := by
  cases s with
  | literal mark first name =>
    have hstart : isSelectorStart first.1 = true := by simp [isSelectorStart, first.2]
    have hbare := bareSelector?_append hstart name.2 hrest
    cases mark with
    | dot => simp [Selector.text, Mark.text, selectorPart?, hbare]
    | hash => simp [Selector.text, Mark.text, selectorPart?, hbare]
    | bare => simp [Selector.text, Mark.text, selectorPart?, not_mark_of_start hstart, hbare]
  | nested name =>
    have hstart : isSelectorStart '&' = true := by decide
    have hbare := bareSelector?_append hstart name.2 hrest
    simp [Selector.text, selectorPart?, hbare]

/-- a mark, a first character and name characters, the mark possibly in front of an ampersand -/
def IsSelector (cs : List Char) : Prop :=
  ∃ (mark : Mark) (first : Char) (rest : NameTail), isSelectorStart first = true ∧ cs = mark.text ++ first :: rest.1

/-- what is read as a selector is one, and it is read as far as its name goes on -/
theorem selectorPart?_eq_some {cs name rest : List Char} (h : selectorPart? cs = some (name, rest)) :
    IsSelector name ∧ cs = name ++ rest ∧ ∀ c ∈ rest.head?, isNamePart c = false := by
  have hbare : ∀ {cs name : List Char}, bareSelector? cs = some (name, rest) →
      (∃ (first : Char) (tail : NameTail), isSelectorStart first = true ∧ name = first :: tail.1) ∧
        cs = name ++ rest ∧ ∀ c ∈ rest.head?, isNamePart c = false := by
    intro cs name h
    cases cs with
    | nil => cases h
    | cons c cs =>
      rw [bareSelector?] at h
      split_ifs at h with hc
      obtain ⟨rfl, rfl⟩ := Prod.mk.inj (Option.some.inj h)
      refine ⟨⟨c, ⟨_, List.all_eq_true.1 List.all_takeWhile⟩, hc, rfl⟩, ?_, fun d hd => ?_⟩
      · rw [List.cons_append, List.takeWhile_append_dropWhile]
      · exact head_dropWhile d hd
  cases cs with
  | nil => cases h
  | cons c cs =>
    rw [selectorPart?] at h
    split_ifs at h with hmark
    · obtain ⟨⟨bare, more⟩, hfound, hname⟩ := Option.map_eq_some_iff.1 h
      obtain ⟨rfl, rfl⟩ := Prod.mk.inj hname
      obtain ⟨⟨first, tail, hfirst, rfl⟩, rfl, hstop⟩ := hbare hfound
      rcases (by simpa using hmark : c = '.' ∨ c = '#') with rfl | rfl
      · exact ⟨⟨.dot, first, tail, hfirst, rfl⟩, rfl, hstop⟩
      · exact ⟨⟨.hash, first, tail, hfirst, rfl⟩, rfl, hstop⟩
    · obtain ⟨⟨first, tail, hfirst, rfl⟩, hcs, hstop⟩ := hbare h
      exact ⟨⟨.bare, first, tail, hfirst, rfl⟩, hcs, hstop⟩

/-- the selectors after the first as they are read, each behind a comma, up to what ends the line -/
inductive MoreSelectors : List Char → List (List Char) → Prop where
  | none {cs : List Char} (h : isOpeningTail cs = true) : MoreSelectors cs []
  | comma {cs rest name more : List Char} {parts : List (List Char)} (hcomma : skipBlank cs = ',' :: rest)
      (hname : selectorPart? (skipBlank rest) = some (name, more)) (hmore : MoreSelectors more parts) :
      MoreSelectors cs (name :: parts)

theorem moreSelectors?_eq_some {fuel : Nat} {cs : List Char} {parts : List (List Char)}
    (h : moreSelectors? fuel cs = some parts) : MoreSelectors cs parts := by
  induction fuel generalizing cs parts with
  | zero => cases h
  | succ fuel ih =>
    rw [moreSelectors?] at h
    split at h
    · rename_i hcomma
      simp only [Option.bind_eq_bind, Option.bind_eq_some_iff] at h
      obtain ⟨⟨name, more⟩, hname, parts', hmore, hparts⟩ := h
      obtain rfl : name :: parts' = parts := by simpa using hparts
      exact .comma hcomma hname (ih hmore)
    · split_ifs at h with htail
      obtain rfl : [] = parts := by simpa using h
      exact .none htail

theorem opening?_eq_some {line : List Char} {parts : List (List Char)} (h : opening? line = some parts) :
    ∃ name rest more, selectorPart? line = some (name, rest) ∧ MoreSelectors rest more ∧ parts = name :: more := by
  simp only [opening?, Option.bind_eq_bind, Option.bind_eq_some_iff] at h
  obtain ⟨⟨name, rest⟩, hname, more, hmore, hparts⟩ := h
  obtain rfl : name :: more = parts := by simpa using hparts
  exact ⟨name, rest, more, hname, moreSelectors?_eq_some hmore, rfl⟩

/-- what opens a rule is a list of selectors -/
theorem opening?_selectors {line : List Char} {parts : List (List Char)} (h : opening? line = some parts) :
    ∀ part ∈ parts, IsSelector part := by
  obtain ⟨name, rest, more, hname, hmore, rfl⟩ := opening?_eq_some h
  refine List.forall_mem_cons.2 ⟨(selectorPart?_eq_some hname).1, ?_⟩
  clear h hname
  induction hmore with
  | none => exact fun _ h => absurd h List.not_mem_nil
  | comma _ hname _ ih => exact List.forall_mem_cons.2 ⟨(selectorPart?_eq_some hname).1, ih⟩

/-- every character of a selector is a name character, a mark or an ampersand -/
theorem Selector.mem_text {s : Selector} {c : Char} (h : c ∈ s.text) :
    isNamePart c = true ∨ c = '.' ∨ c = '#' ∨ c = '&' := by
  cases s with
  | literal mark first rest =>
    simp only [Selector.text, List.mem_append, List.mem_cons] at h
    rcases h with h | rfl | h
    · cases mark <;> simp [Mark.text] at h <;> tauto
    · exact Or.inl (isNamePart_of_start first.2)
    · exact Or.inl (rest.2 c h)
  | nested rest =>
    rcases List.mem_cons.1 h with rfl | h
    · tauto
    · exact Or.inl (rest.2 c h)

theorem Selector.text_ne_nil (s : Selector) : s.text ≠ [] := by
  cases s <;> simp [Selector.text]

theorem Selector.not_blank {s : Selector} {c : Char} (h : c ∈ s.text) : Text.isBlank c = false := by
  rcases s.mem_text h with h | rfl | rfl | rfl
  · exact not_blank_of_part h
  all_goals decide

theorem skipBlank_gap (g : Gap) {cs : List Char} (h : ∀ c ∈ cs.head?, Text.isBlank c = false) :
    skipBlank (g.1 ++ cs) = cs := by
  rw [skipBlank, List.dropWhile_append_of_pos fun c hc => (g.2 c hc).1]
  cases cs with
  | nil => rfl
  | cons c cs => simp [h c rfl]

/-- a gap ends a name -/
theorem head_gap (g : Gap) {cs : List Char} (h : ∀ c ∈ cs.head?, isNamePart c = false) :
    ∀ c ∈ (g.1 ++ cs).head?, isNamePart c = false := by
  intro c hc
  rcases hg : g.1 with _ | ⟨b, rest⟩
  · rw [hg] at hc; exact h c hc
  · obtain rfl : b = c := by simpa [hg] using hc
    exact not_part_of_blank (g.2 b (by simp [hg])).1

/-- what follows the selectors on their line: nothing, or blanks and a brace -/
structure IsLineEnd (cs : List Char) : Prop where
  tail : isOpeningTail cs = true
  comma : ∀ rest, skipBlank cs ≠ ',' :: rest
  stop : ∀ c ∈ cs.head?, isNamePart c = false

/-- a blank, a comma, or what ends the line: no name goes on there -/
theorem head_moreText {more : List (Gap × Gap × Selector)} {cs : List Char} (h : IsLineEnd cs) :
    ∀ c ∈ (Header.moreText more ++ cs).head?, isNamePart c = false := by
  match more with
  | [] => exact h.stop
  | (before, after, s) :: more =>
    rw [Header.moreText, List.append_assoc]
    exact head_gap before (by simp; decide)

theorem moreSelectors?_moreText {cs : List Char} (h : IsLineEnd cs) (more : List (Gap × Gap × Selector)) (fuel : Nat)
    (hfuel : more.length < fuel) :
    moreSelectors? fuel (Header.moreText more ++ cs) = some (more.map fun m => m.2.2.text) := by
  induction more generalizing fuel with
  | nil =>
    obtain ⟨fuel, rfl⟩ : ∃ n, fuel = n + 1 := ⟨fuel - 1, by simp at hfuel; omega⟩
    simp only [Header.moreText, List.nil_append, moreSelectors?]
    split
    · rename_i rest hc
      exact absurd hc (h.comma rest)
    · simp [h.tail]
  | cons m more ih =>
    obtain ⟨before, after, s⟩ := m
    obtain ⟨fuel, rfl⟩ : ∃ n, fuel = n + 1 := ⟨fuel - 1, by simp at hfuel; omega⟩
    have hcomma : skipBlank (Header.moreText ((before, after, s) :: more) ++ cs) =
        ',' :: (after.1 ++ (s.text ++ (Header.moreText more ++ cs))) := by
      have hstop : ∀ c ∈ (',' :: (after.1 ++ (s.text ++ (Header.moreText more ++ cs)))).head?,
          Text.isBlank c = false := by
        simp; decide
      simpa [Header.moreText] using skipBlank_gap before hstop
    have hsel : skipBlank (after.1 ++ (s.text ++ (Header.moreText more ++ cs))) =
        s.text ++ (Header.moreText more ++ cs) := by
      refine skipBlank_gap after fun c hc => s.not_blank ?_
      obtain ⟨d, rest, hs⟩ := List.exists_cons_of_ne_nil s.text_ne_nil
      simp only [hs, List.cons_append, List.head?_cons, Option.mem_def, Option.some.injEq] at hc
      simp [hs, hc]
    rw [moreSelectors?, hcomma]
    simp only [hsel, selectorPart?_append s (head_moreText h), Option.bind_eq_bind, Option.bind_some,
      ih fuel (by simpa using hfuel)]
    rfl

/-- a comma for each selector after the first, so the fuel lasts -/
theorem length_le_moreText (more : List (Gap × Gap × Selector)) : more.length ≤ (Header.moreText more).length := by
  induction more with
  | nil => simp
  | cons m more ih => simp [Header.moreText]; omega

/-- **The selectors of a rule are read back.** -/
theorem opening?_header (h : Header) {cs : List Char} (hcs : IsLineEnd cs) :
    opening? (h.text ++ cs) = some (h.selectors.map Selector.text) := by
  have hfuel : h.more.length < (Header.moreText h.more ++ cs).length + 1 := by
    have := length_le_moreText h.more
    rw [List.length_append]; omega
  rw [opening?, Header.text, List.append_assoc, selectorPart?_append h.first (head_moreText hcs)]
  simp only [Option.bind_eq_bind, Option.bind_some, moreSelectors?_moreText hcs h.more _ hfuel]
  simp [Header.selectors]

theorem isLineEnd_nil : IsLineEnd [] := ⟨rfl, by simp [skipBlank], by simp⟩

theorem isLineEnd_brace (g : Gap) : IsLineEnd (g.1 ++ ['\x7b']) := by
  have hskip : skipBlank (g.1 ++ ['\x7b']) = ['\x7b'] := skipBlank_gap g (by simp; decide)
  refine ⟨?_, ?_, ?_⟩
  · rw [isOpeningTail, hskip]; rfl
  · rw [hskip]; simp
  · exact head_gap g (by simp; decide)

/-! ## The lines of a rule -/

theorem Header.mem_moreText {more : List (Gap × Gap × Selector)} {c : Char} (h : c ∈ Header.moreText more) :
    c = ',' ∨ (Text.isBlank c = true ∧ c ≠ '\n') ∨ ∃ s : Selector, c ∈ s.text := by
  induction more with
  | nil => simp [Header.moreText] at h
  | cons m more ih =>
    obtain ⟨before, after, s⟩ := m
    simp only [Header.moreText, List.mem_append, List.mem_cons] at h
    rcases h with h | rfl | (h | h) | h
    · exact Or.inr (Or.inl (before.2 c h))
    · exact Or.inl rfl
    · exact Or.inr (Or.inl (after.2 c h))
    · exact Or.inr (Or.inr ⟨s, h⟩)
    · exact ih h

/-- no line feed and no closing brace stands between the selectors -/
theorem Header.clean_text (h : Header) : '\n' ∉ h.text ∧ '\x7d' ∉ h.text := by
  have hsel : ∀ s : Selector, '\n' ∉ s.text ∧ '\x7d' ∉ s.text := by
    intro s
    constructor <;> intro hc <;> rcases s.mem_text hc with h | h | h | h <;> exact absurd h (by decide)
  have hmem : ∀ c ∈ h.text, c = ',' ∨ (Text.isBlank c = true ∧ c ≠ '\n') ∨ ∃ s : Selector, c ∈ s.text := by
    intro c hc
    rcases List.mem_append.1 hc with hc | hc
    · exact Or.inr (Or.inr ⟨h.first, hc⟩)
    · exact mem_moreText hc
  constructor
  · intro hc
    rcases hmem _ hc with hc | hc | ⟨s, hc⟩
    · exact absurd hc (by decide)
    · exact hc.2 rfl
    · exact (hsel s).1 hc
  · intro hc
    rcases hmem _ hc with hc | hc | ⟨s, hc⟩
    · exact absurd hc (by decide)
    · exact absurd hc.1 (by decide)
    · exact (hsel s).2 hc

theorem Header.head_text (h : Header) (cs : List Char) : ∀ c ∈ (h.text ++ cs).head?, Text.isBlank c = false := by
  intro c hc
  obtain ⟨d, rest, hs⟩ := List.exists_cons_of_ne_nil h.first.text_ne_nil
  obtain rfl : d = c := by simpa [Header.text, hs] using hc
  exact h.first.not_blank (by simp [hs])

theorem Header.last_text (h : Header) : ∀ c ∈ h.text.getLast?, Text.isBlank c = false := by
  -- each selector takes the place of the one before it as the last
  have key : ∀ (more : List (Gap × Gap × Selector)) (s : Selector),
      ∀ c ∈ (s.text ++ moreText more).getLast?, Text.isBlank c = false := by
    intro more
    induction more with
    | nil =>
      intro s c hc
      exact s.not_blank (List.mem_of_getLast? (by simpa [moreText] using hc))
    | cons m more ih =>
      obtain ⟨before, after, s'⟩ := m
      intro s c hc
      have hsplit : s.text ++ moreText ((before, after, s') :: more) =
          (s.text ++ before.1 ++ ',' :: after.1) ++ (s'.text ++ moreText more) := by
        simp [moreText]
      rw [hsplit, List.getLast?_append_of_ne_nil _ (by simp [s'.text_ne_nil])] at hc
      exact ih s' c hc
  exact key h.more h.first

theorem Header.text_ne_nil (h : Header) : h.text ≠ [] := by
  simp [Header.text, h.first.text_ne_nil]

theorem gap_blank (g : Gap) : ∀ c ∈ g.1, Text.isBlank c = true := fun c hc => (g.2 c hc).1

theorem gap_clean (g : Gap) : '\n' ∉ g.1 ∧ '\x7d' ∉ g.1 := by
  constructor
  · intro hc; exact (g.2 _ hc).2 rfl
  · intro hc; exact absurd (g.2 _ hc).1 (by decide)

theorem opening?_brace : opening? ['\x7b'] = none := by decide

/-- the lines of a rule's selectors open the rule -/
theorem foldl_header (h : Header) (n : Nest) : h.lines.foldl Nest.step n = n.push (h.selectors.map Selector.text) := by
  obtain ⟨-, htext⟩ := h.clean_text
  cases hb : h.brace with
  | sameLine before after =>
    have hline : h.lines = [h.indent.1 ++ (h.text ++ (before.1 ++ ['\x7b'])) ++ after.1] := by
      simp [Header.lines, hb]
    have htrim : Text.trim (h.indent.1 ++ (h.text ++ (before.1 ++ ['\x7b'])) ++ after.1) =
        h.text ++ (before.1 ++ ['\x7b']) :=
      trim_between (gap_blank _) (gap_blank _) (h.head_text _) (by simp; decide) (by simp [h.text_ne_nil])
    rw [hline, List.foldl_cons, List.foldl_nil]
    refine step_opening n ?_ ?_
    · rw [htrim]; exact opening?_header h (isLineEnd_brace before)
    · rw [htrim]; simp [htext, (gap_clean before).2]
  | nextLine trailing line =>
    have hline : h.lines = [h.indent.1 ++ h.text ++ trailing.1, line.1] := by simp [Header.lines, hb]
    have htrim : Text.trim (h.indent.1 ++ h.text ++ trailing.1) = h.text :=
      trim_between (gap_blank _) (gap_blank _) (by simpa using h.head_text []) h.last_text h.text_ne_nil
    have hopen := opening?_header h isLineEnd_nil
    rw [List.append_nil] at hopen
    rw [hline, List.foldl_cons, List.foldl_cons, List.foldl_nil]
    rw [step_opening n (by rw [htrim]; exact hopen) (by rw [htrim]; exact htext)]
    -- the brace on its own line is no selector
    refine step_plain _ ?_ ?_
    · rw [line.2.1]; exact opening?_brace
    · rw [line.2.1]; decide

/-! ## The classes of a sheet -/

theorem resolve_text (parent : List Char) (s : Selector) : resolve parent s.text = s.resolved parent := by
  cases s with
  | literal mark first rest =>
    cases mark with
    | dot => rfl
    | hash => rfl
    | bare =>
      have hamp : first.1 ≠ '&' := by
        intro h
        exact absurd (h ▸ first.2) (by decide)
      simp only [Selector.text, Selector.resolved, Mark.text, List.nil_append]
      unfold resolve
      split
      · rename_i heq
        exact absurd (List.cons.inj heq).1 hamp
      · rfl
  | nested rest => rfl

theorem className?_eq_none {s : List Char} (h : s.head? ≠ some '.') : className? s = none := by
  unfold className?
  split
  · exact absurd rfl h
  · rfl

theorem filterMap_className? (selectors : List (List Char)) : selectors.filterMap className? = dotted selectors := by
  induction selectors with
  | nil => rfl
  | cons s selectors ih =>
    by_cases hs : s.head? = some '.'
    · obtain ⟨rest, rfl⟩ : ∃ rest, s = '.' :: rest := by
        cases s with
        | nil => simp at hs
        | cons c rest => exact ⟨rest, by simpa using hs⟩
      simp [className?, dotted, ih]
    · simp [className?_eq_none hs, dotted, hs, ih]

/-- opening a rule records its classes and leaves its first selector innermost -/
theorem push_selectors (h : Header) (n : Nest) : n.push (h.selectors.map Selector.text) =
    ⟨h.first.resolved (n.stack.headD []) :: n.stack,
      n.found ++ dotted (h.selectors.map (Selector.resolved (n.stack.headD [])))⟩ := by
  have hmap : (h.selectors.map Selector.text).map (resolve (n.stack.headD [])) =
      h.selectors.map (Selector.resolved (n.stack.headD [])) := by
    rw [List.map_map]
    exact List.map_congr_left fun s _ => resolve_text _ s
  unfold Nest.push
  simp only [hmap, filterMap_className?]
  rfl

/-- reading a sheet leaves the open rules as they were, and records its classes under the innermost of them -/
theorem foldl_lines (s : Sheet) (n : Nest) :
    s.lines.foldl Nest.step n = ⟨n.stack, n.found ++ s.classes (n.stack.headD [])⟩ := by
  induction s generalizing n with
  | nil => simp [Sheet.lines, Sheet.classes]
  | declaration line rest ih =>
    obtain ⟨-, hclose, hopen⟩ := line.2
    rw [Sheet.lines, List.foldl_cons, step_plain n hopen fun hc => hclose (mem_of_mem_trim hc), ih]
    rfl
  | rule header body close rest ihBody ihRest =>
    rw [Sheet.lines, List.foldl_append, List.foldl_append, List.foldl_cons, foldl_header, push_selectors, ihBody,
      step_closing _ close.2.1, ihRest]
    simp [Sheet.classes]

theorem Header.clean_lines (h : Header) : ∀ line ∈ h.lines, '\n' ∉ line := by
  have htext := h.clean_text.1
  have hindent := (gap_clean h.indent).1
  intro l hl
  cases hb : h.brace with
  | sameLine before after =>
    simp only [Header.lines, hb, List.mem_singleton] at hl
    subst hl
    simp [htext, hindent, (gap_clean before).1, (gap_clean after).1]
  | nextLine trailing line =>
    simp only [Header.lines, hb, List.mem_cons, List.not_mem_nil, or_false] at hl
    rcases hl with rfl | rfl
    · simp [htext, hindent, (gap_clean trailing).1]
    · exact line.2.2

theorem Sheet.clean_lines (s : Sheet) : ∀ line ∈ s.lines, '\n' ∉ line := by
  induction s with
  | nil => simp [Sheet.lines]
  | declaration line rest ih =>
    intro l hl
    rcases List.mem_cons.1 hl with rfl | hl
    · exact line.2.1
    · exact ih l hl
  | rule header body close rest ihBody ihRest =>
    intro l hl
    simp only [Sheet.lines, List.mem_append, List.mem_cons] at hl
    rcases hl with (hl | hl) | rfl | hl
    · exact header.clean_lines l hl
    · exact ihBody l hl
    · exact close.2.2
    · exact ihRest l hl

/-- no sheet is lost in writing it down: its lines are read back, but for the empty line of the empty text -/
theorem foldl_linesOf_joined {lines : List (List Char)} (h : ∀ line ∈ lines, '\n' ∉ line) (n : Nest) :
    (linesOf (joined lines)).foldl Nest.step n = lines.foldl Nest.step n := by
  cases lines with
  | nil => rfl
  | cons line lines => rw [linesOf_joined, flatMap_linesOf h]

/-- **Nested rules are flattened in pre-order.** For every sheet in every layout, the classes recorded are, rule by rule
in the order of their opening, the selectors with `&` replaced by the first selector of the enclosing rule, those only
that start with a dot, and without it. -/
theorem nested_text (s : Sheet) : nested s.text = (s.classes []).map String.ofList := by
  rw [Sheet.text, nested_eq, expandLines, foldl_linesOf_joined s.clean_lines, foldl_lines]
  rfl

example : nested ".a, #b ,.c \x7b\n  color: red;\n  &_x\n  \x7b\n  \x7d\n\x7d" = ["a", "c", "a_x"] := by decide +kernel

end ClassNaming.Extract
