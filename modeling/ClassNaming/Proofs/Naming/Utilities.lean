/-
The utility catalog, read into patterns.

Almost every source of the catalog spells out what it accepts in letters, digits, hyphens and a few marks. Eleven leave a
part open, to word characters or to anything on one line, and only these can take an underscore.

- `filter_lacks_catalog`: the patterns of the catalog that do not lack the underscore, in its order.
- `exists_open_iff`: what they accept, said without patterns: the texts of `OpenForm`.
- `accepts_underscore_iff`: so the catalog accepts a token with an underscore exactly if it is of open form.
- `guarded_catalog`: marks of all patterns of the catalog that tell them from states and modifiers.
-/
import ClassNaming.Proofs.Naming.Grammars
import ClassNaming.Proofs.Pattern.Absence
import ClassNaming.Proofs.Pattern.Edges
import ClassNaming.Proofs.Pattern.Spelling

namespace ClassNaming

open Pattern

/-! ## The sources of the catalog, character by character -/

def utilitySources : List String := utilityCatalog.flatMap (·.2)

def spelledSources : Spellings utilitySources :=
  ⟨_, by
    simp only [utilitySources, utilityCatalog, List.flatMap_cons, List.cons_append, List.nil_append, List.flatMap_nil]
    repeat apply Spellings.cons
    exact List.map_nil.symm⟩

/-- the pattern of a source of the library's own -/
def sourcePattern (cs : List Char) : Pattern := (Pattern.readChars cs).toOption.getD .never

theorem patterns_utilityGrammars : utilityGrammars.map (·.pattern) = spelledSources.1.map sourcePattern := by
  calc utilityGrammars.map (·.pattern)
      = utilitySources.map fun source => (Pattern.read source).toOption.getD .never := by
        simp only [utilityGrammars, utilitySources, List.map_flatMap, List.map_map]
        rfl
    _ = spelledSources.1.map sourcePattern := by
        rw [spelledSources.map_eq]
        simp only [Pattern.read, String.toList_ofList]
        rfl

/-! ## The sources that leave a part open -/

def wordChar : CharSet := ⟨false, [.category .word false], false, false⟩

def digitChar : CharSet := ⟨false, [.category .digit false], false, false⟩

/-- any character but a line feed -/
def lineChar : CharSet := ⟨true, [.one 10], false, false⟩

/-- one character and more -/
def someOf (set : CharSet) : Pattern := .rep (.char set) 1 none .greedy

/-- a hyphen and digits, which may be left out, kept under a number -/
def optionalNumber (group : Nat) : Pattern :=
  .rep (.group group (.seq (.ofChar '-') (someOf digitChar))) 0 (some 1) .greedy

def namedParts (lead : String) : List Pattern := literal lead.toList ++ [someOf wordChar] ++ [optionalNumber 1]

def blendedParts (lead : String) : List Pattern := literal lead.toList ++ [someOf wordChar]

/-- three words of their own, or a name -/
def paintedParts (lead : String) : List Pattern :=
  literal lead.toList ++ [.group 1 (choice [sequence (literal "none".toList), sequence (literal "inherit".toList),
    sequence (literal "current".toList), sequence ([someOf wordChar] ++ [optionalNumber 2])])]

def bracketedParts (lead : List Pattern) : List Pattern := lead ++ [someOf lineChar] ++ literal [']']

/-- the text, background, border or ring of a colour in brackets -/
def colouredLead : List Pattern :=
  [.group 1 (choice [sequence (literal "text".toList), sequence (literal "bg".toList),
    sequence (literal "border".toList), sequence (literal "ring".toList)])] ++ literal "-[rgb".toList

/-- what the open sources are read into, in the order of the catalog -/
def openParts : List (List Pattern) :=
  [bracketedParts (literal "text-[".toList), bracketedParts colouredLead, namedParts "from-", namedParts "via-",
    namedParts "to-", blendedParts "mix-blend-", blendedParts "bg-blend-", namedParts "accent-", namedParts "caret-",
    paintedParts "fill-", paintedParts "stroke-"]

/-! ## Checks of the catalog -/

/-- the pattern takes no state: a hyphen is needed, or no capital passes -/
def lowers (p : Pattern) : Bool := p.needs '-' || p.tests.all (·.misses 65 90)

/-- the pattern takes no modifier: a bracket is needed, or hyphens are kept apart -/
def separates (p : Pattern) : Bool := p.needs '[' || p.apart '-'

/-- all checks of the catalog at once, since most of the work is to read its sources -/
theorem checked_catalog :
    (utilityGrammars.map (·.pattern)).filter (fun p => !p.lacks '_') = openParts.map anchored ∧
    ∀ p ∈ utilityGrammars.map (·.pattern), p.isPlain ∧ lowers p ∧ separates p := by
  rw [patterns_utilityGrammars]
  decide +kernel

/-- **The patterns of the catalog that do not lack the underscore.** -/
theorem filter_lacks_catalog : (utilityGrammars.map (·.pattern)).filter (fun p => !p.lacks '_') =
    openParts.map anchored := checked_catalog.1

/-- **Every pattern of the catalog takes neither states nor modifiers.** -/
theorem guarded_catalog : ∀ p ∈ utilityGrammars.map (·.pattern), p.isPlain ∧ lowers p ∧ separates p :=
  checked_catalog.2

theorem isFree_openParts : ∀ ps ∈ openParts, ∀ p ∈ ps, p.isFree = true := by decide

/-! ## Open form -/

/-- letters, digits and underscores, one at least -/
def IsWord (w : List Char) : Prop := w ≠ [] ∧ ∀ c ∈ w, c.isAlphanum = true ∨ c = '_'

/-- nothing, or a hyphen and digits -/
def IsNumber (w : List Char) : Prop := w = [] ∨ ∃ digits, w = '-' :: digits ∧ digits ≠ [] ∧ ∀ c ∈ digits, c.isDigit = true

/-- the utilities with a part that the catalog leaves open -/
inductive OpenForm : List Char → Prop where
  | named {lead : String} {name number : List Char}
      (hlead : lead ∈ ["from-", "via-", "to-", "accent-", "caret-", "fill-", "stroke-"]) (hname : IsWord name)
      (hnumber : IsNumber number) : OpenForm (lead.toList ++ name ++ number)
  | blended {lead : String} {name : List Char} (hlead : lead ∈ ["mix-blend-", "bg-blend-"]) (hname : IsWord name) :
      OpenForm (lead.toList ++ name)
  | bracketed {lead : String} {body : List Char} (hlead : lead ∈ ["text-[", "bg-[rgb", "border-[rgb", "ring-[rgb"])
      (hbody : body ≠ []) (hline : '\n' ∉ body) : OpenForm (lead.toList ++ body ++ [']'])

theorem wordChar_holds (c : Char) : wordChar.holds c = true ↔ c.isAlphanum = true ∨ c = '_' := by
  have hunderscore : c.toNat = 95 ↔ c = '_' := by rw [← Char.toNat_inj]; rfl
  simp only [wordChar, CharSet.holds, SetItem.covers, Category.holds, Char.isAlphanum, Char.isAlpha, Bool.or_eq_true,
    isLower_iff, isUpper_iff, isDigit_iff, ← hunderscore]
  simp
  omega

theorem digitChar_holds (c : Char) : digitChar.holds c = true ↔ c.isDigit = true := by
  simp [digitChar, CharSet.holds, SetItem.covers, Category.holds, isDigit_iff]

theorem lineChar_holds (c : Char) : lineChar.holds c = true ↔ c ≠ '\n' := by
  have hfeed : c.toNat = 10 ↔ c = '\n' := by rw [← Char.toNat_inj]; rfl
  simp [lineChar, CharSet.holds, SetItem.covers, ← hfeed]

theorem mem_someOf (set : CharSet) (w : List Char) :
    w ∈ (someOf set).language ↔ w ≠ [] ∧ ∀ c ∈ w, set.holds c = true := by
  rw [someOf, mem_language_chars, Nat.one_le_iff_ne_zero, Ne, List.length_eq_zero_iff]

theorem mem_single (p : Pattern) (w : List Char) : w ∈ (sequence [p]).language ↔ w ∈ p.language := Iff.rfl

theorem mem_word (w : List Char) : w ∈ (someOf wordChar).language ↔ IsWord w := by
  simp only [mem_someOf, wordChar_holds, IsWord]

theorem mem_optionalNumber (group : Nat) (w : List Char) : w ∈ (optionalNumber group).language ↔ IsNumber w := by
  rw [optionalNumber, language_optional, Language.mem_add, Language.mem_one]
  apply or_congr_right
  change w ∈ (ofChar '-').language * (someOf digitChar).language ↔ _
  simp only [language_ofChar, Language.mem_mul, mem_someOf, digitChar_holds]
  constructor
  · rintro ⟨_, rfl, digits, hdigits, rfl⟩
    exact ⟨digits, rfl, hdigits⟩
  · rintro ⟨digits, rfl, hdigits⟩
    exact ⟨['-'], rfl, digits, hdigits, rfl⟩

theorem mem_named (lead : String) (w : List Char) : w ∈ (sequence (namedParts lead)).language ↔
    ∃ name number, IsWord name ∧ IsNumber number ∧ w = lead.toList ++ name ++ number := by
  simp only [namedParts, language_sequence_append, Language.mem_mul, mem_literal, mem_single, mem_word,
    mem_optionalNumber]
  constructor
  · rintro ⟨_, ⟨_, rfl, name, hname, rfl⟩, number, hnumber, rfl⟩
    exact ⟨name, number, hname, hnumber, rfl⟩
  · rintro ⟨name, number, hname, hnumber, rfl⟩
    exact ⟨_, ⟨_, rfl, name, hname, rfl⟩, number, hnumber, rfl⟩

theorem mem_blended (lead : String) (w : List Char) : w ∈ (sequence (blendedParts lead)).language ↔
    ∃ name, IsWord name ∧ w = lead.toList ++ name := by
  simp only [blendedParts, language_sequence_append, Language.mem_mul, mem_literal, mem_single, mem_word]
  constructor
  · rintro ⟨_, rfl, name, hname, rfl⟩
    exact ⟨name, hname, rfl⟩
  · rintro ⟨name, hname, rfl⟩
    exact ⟨_, rfl, name, hname, rfl⟩

theorem isWord_of_letters {w : String} (hne : w.toList ≠ []) (h : w.toList.all Char.isAlphanum = true) :
    IsWord w.toList :=
  ⟨hne, fun c hc => Or.inl (List.all_eq_true.1 h c hc)⟩

/-- the three words are names too -/
theorem mem_painted (lead : String) (w : List Char) : w ∈ (sequence (paintedParts lead)).language ↔
    ∃ name number, IsWord name ∧ IsNumber number ∧ w = lead.toList ++ name ++ number := by
  have hchoice : ∀ v, v ∈ (choice [sequence (literal "none".toList), sequence (literal "inherit".toList),
      sequence (literal "current".toList), sequence ([someOf wordChar] ++ [optionalNumber 2])]).language ↔
      ∃ name number, IsWord name ∧ IsNumber number ∧ v = name ++ number := by
    intro v
    change v ∈ (sequence _).language + ((sequence _).language + ((sequence _).language + (sequence _).language)) ↔ _
    simp only [Language.mem_add, mem_literal, language_sequence_append, Language.mem_mul, mem_single, mem_word,
      mem_optionalNumber]
    constructor
    · rintro (rfl | rfl | rfl | ⟨name, hname, number, hnumber, rfl⟩)
      · exact ⟨"none".toList, [], isWord_of_letters (by decide) (by decide), Or.inl rfl, by simp⟩
      · exact ⟨"inherit".toList, [], isWord_of_letters (by decide) (by decide), Or.inl rfl, by simp⟩
      · exact ⟨"current".toList, [], isWord_of_letters (by decide) (by decide), Or.inl rfl, by simp⟩
      · exact ⟨name, number, hname, hnumber, rfl⟩
    · rintro ⟨name, number, hname, hnumber, rfl⟩
      exact Or.inr (Or.inr (Or.inr ⟨name, hname, number, hnumber, rfl⟩))
  rw [paintedParts, language_sequence_append, Language.mem_mul]
  simp only [mem_literal, mem_single]
  constructor
  · rintro ⟨_, rfl, v, hv, rfl⟩
    obtain ⟨name, number, hname, hnumber, rfl⟩ := (hchoice v).1 hv
    exact ⟨name, number, hname, hnumber, by simp⟩
  · rintro ⟨name, number, hname, hnumber, rfl⟩
    exact ⟨_, rfl, name ++ number, (hchoice _).2 ⟨name, number, hname, hnumber, rfl⟩, by simp⟩

theorem mem_bracketed (lead : List Pattern) (w : List Char) : w ∈ (sequence (bracketedParts lead)).language ↔
    ∃ u ∈ (sequence lead).language, ∃ body, body ≠ [] ∧ '\n' ∉ body ∧ w = u ++ body ++ [']'] := by
  have hline : ∀ body : List Char, (∀ c ∈ body, c ≠ '\n') ↔ '\n' ∉ body := by
    intro body
    exact ⟨fun h hc => h _ hc rfl, fun h c hc hfeed => h (hfeed ▸ hc)⟩
  simp only [bracketedParts, language_sequence_append, Language.mem_mul, mem_literal, mem_single, mem_someOf,
    lineChar_holds, hline]
  constructor
  · rintro ⟨_, ⟨u, hu, body, ⟨hne, hfeed⟩, rfl⟩, _, rfl, rfl⟩
    exact ⟨u, hu, body, hne, hfeed, rfl⟩
  · rintro ⟨u, hu, body, hne, hfeed, rfl⟩
    exact ⟨_, ⟨u, hu, body, ⟨hne, hfeed⟩, rfl⟩, _, rfl, rfl⟩

theorem mem_colouredLead (u : List Char) : u ∈ (sequence colouredLead).language ↔
    ∃ lead ∈ ["text-[rgb", "bg-[rgb", "border-[rgb", "ring-[rgb"], u = lead.toList := by
  have hchoice : ∀ v, v ∈ (choice [sequence (literal "text".toList), sequence (literal "bg".toList),
      sequence (literal "border".toList), sequence (literal "ring".toList)]).language ↔
      v = "text".toList ∨ v = "bg".toList ∨ v = "border".toList ∨ v = "ring".toList := by
    intro v
    change v ∈ (sequence _).language + ((sequence _).language + ((sequence _).language + (sequence _).language)) ↔ _
    simp only [Language.mem_add, mem_literal]
  rw [colouredLead, language_sequence_append, Language.mem_mul]
  simp only [mem_single, mem_literal]
  constructor
  · rintro ⟨v, hv, _, rfl, rfl⟩
    rcases (hchoice v).1 hv with rfl | rfl | rfl | rfl
    · exact ⟨"text-[rgb", by simp, by simp⟩
    · exact ⟨"bg-[rgb", by simp, by simp⟩
    · exact ⟨"border-[rgb", by simp, by simp⟩
    · exact ⟨"ring-[rgb", by simp, by simp⟩
  · rintro ⟨lead, hlead, rfl⟩
    simp only [List.mem_cons, List.not_mem_nil, or_false] at hlead
    rcases hlead with rfl | rfl | rfl | rfl
    · exact ⟨"text".toList, (hchoice _).2 (by simp), _, rfl, by simp⟩
    · exact ⟨"bg".toList, (hchoice _).2 (by simp), _, rfl, by simp⟩
    · exact ⟨"border".toList, (hchoice _).2 (by simp), _, rfl, by simp⟩
    · exact ⟨"ring".toList, (hchoice _).2 (by simp), _, rfl, by simp⟩

/-- **The open sources take the texts of open form.** -/
theorem exists_open_iff (w : List Char) : (∃ ps ∈ openParts, w ∈ (sequence ps).language) ↔ OpenForm w := by
  simp only [openParts, List.exists_mem_cons_iff, List.not_mem_nil, false_and, exists_false, or_false, mem_bracketed,
    mem_literal, mem_named, mem_blended, mem_painted]
  constructor
  · have hnamed : ∀ lead ∈ ["from-", "via-", "to-", "accent-", "caret-", "fill-", "stroke-"],
        (∃ name number, IsWord name ∧ IsNumber number ∧ w = lead.toList ++ name ++ number) → OpenForm w := by
      rintro lead hlead ⟨name, number, hname, hnumber, rfl⟩
      exact .named hlead hname hnumber
    have hblended : ∀ lead ∈ ["mix-blend-", "bg-blend-"], (∃ name, IsWord name ∧ w = lead.toList ++ name) →
        OpenForm w := by
      rintro lead hlead ⟨name, hname, rfl⟩
      exact .blended hlead hname
    intro h
    rcases h with h | h | h | h | h | h | h | h | h | h | h
    · obtain ⟨u, rfl, body, hbody, hline, rfl⟩ := h
      exact .bracketed (by simp) hbody hline
    · obtain ⟨u, hu, body, hbody, hline, rfl⟩ := h
      obtain ⟨lead, hlead, rfl⟩ := (mem_colouredLead u).1 hu
      rcases List.mem_cons.1 hlead with rfl | hlead
      · have hsplit : "text-[rgb".toList ++ body ++ [']'] = "text-[".toList ++ ("rgb".toList ++ body) ++ [']'] := by
          simp
        rw [hsplit]
        exact .bracketed (by simp) (by simp) (by simp [hline])
      · exact .bracketed (List.mem_cons_of_mem _ hlead) hbody hline
    · exact hnamed _ (by simp) h
    · exact hnamed _ (by simp) h
    · exact hnamed _ (by simp) h
    · exact hblended _ (by simp) h
    · exact hblended _ (by simp) h
    · exact hnamed _ (by simp) h
    · exact hnamed _ (by simp) h
    · exact hnamed _ (by simp) h
    · exact hnamed _ (by simp) h
  · intro h
    cases h with
    | @named lead name number hlead hname hnumber =>
      have hword : ∃ n m, IsWord n ∧ IsNumber m ∧ lead.toList ++ name ++ number = lead.toList ++ n ++ m :=
        ⟨name, number, hname, hnumber, rfl⟩
      simp only [List.mem_cons, List.not_mem_nil, or_false] at hlead
      rcases hlead with rfl | rfl | rfl | rfl | rfl | rfl | rfl <;> simp only [hword, true_or, or_true]
    | @blended lead name hlead hname =>
      have hword : ∃ n, IsWord n ∧ lead.toList ++ name = lead.toList ++ n := ⟨name, hname, rfl⟩
      simp only [List.mem_cons, List.not_mem_nil, or_false] at hlead
      rcases hlead with rfl | rfl <;> simp only [hword, true_or, or_true]
    | @bracketed lead body hlead hbody hline =>
      rcases List.mem_cons.1 hlead with rfl | hlead
      · exact Or.inl ⟨_, rfl, body, hbody, hline, rfl⟩
      · have hlead : lead.toList ∈ (sequence colouredLead).language :=
          (mem_colouredLead _).2 ⟨lead, List.mem_cons_of_mem _ hlead, rfl⟩
        exact Or.inr (Or.inl ⟨_, hlead, body, hbody, hline, rfl⟩)

/-! ## Utilities with an underscore -/

/-- a grammar of the catalog that accepts a token with an underscore is one of the open ones -/
theorem exists_parts_of_accepts {g : Grammar} (hg : g ∈ utilityGrammars) {t : String} (hunderscore : '_' ∈ t.toList)
    (h : g.accepts t = true) : ∃ ps ∈ openParts, g.pattern = anchored ps := by
  have hlacks : g.pattern.lacks '_' = false := by
    rw [Bool.eq_false_iff]
    intro hlacks
    exact notMem_of_fullMatches hlacks h hunderscore
  have hmem : g.pattern ∈ (utilityGrammars.map (·.pattern)).filter fun p => !p.lacks '_' :=
    List.mem_filter.2 ⟨List.mem_map_of_mem hg, by simp [hlacks]⟩
  rw [filter_lacks_catalog] at hmem
  obtain ⟨ps, hps, heq⟩ := List.mem_map.1 hmem
  exact ⟨ps, hps, heq.symm⟩

theorem exists_grammar_of_parts {ps : List Pattern} (hps : ps ∈ openParts) :
    ∃ g ∈ utilityGrammars, g.pattern = anchored ps := by
  have hmem : anchored ps ∈ (utilityGrammars.map (·.pattern)).filter fun p => !p.lacks '_' := by
    rw [filter_lacks_catalog]
    exact List.mem_map_of_mem hps
  exact List.mem_map.1 (List.mem_filter.1 hmem).1

/-- every text of open form is a utility -/
theorem exists_accepts_of_openForm {t : String} (h : OpenForm t.toList) : ∃ g ∈ utilityGrammars, g.accepts t = true := by
  obtain ⟨ps, hps, ht⟩ := (exists_open_iff t.toList).2 h
  obtain ⟨g, hg, hpattern⟩ := exists_grammar_of_parts hps
  exact ⟨g, hg, (accepts_iff hpattern (isFree_openParts ps hps) t).2 ht⟩

/-- **A token with an underscore is a utility of the catalog exactly if it is of open form.** -/
theorem accepts_underscore_iff {t : String} (h : '_' ∈ t.toList) :
    (∃ g ∈ utilityGrammars, g.accepts t = true) ↔ OpenForm t.toList := by
  constructor
  · rintro ⟨g, hg, haccepts⟩
    obtain ⟨ps, hps, hpattern⟩ := exists_parts_of_accepts hg h haccepts
    exact (exists_open_iff t.toList).1 ⟨ps, hps, (accepts_iff hpattern (isFree_openParts ps hps) t).1 haccepts⟩
  · exact exists_accepts_of_openForm

theorem isUtility_catalog_iff (t : String) : isUtility [] t = true ↔ ∃ g ∈ utilityGrammars, g.accepts t = true := by
  simp [isUtility, Library.isUtility, Library.builtin]

end ClassNaming
