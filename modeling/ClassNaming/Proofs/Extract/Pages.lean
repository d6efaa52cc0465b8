/-
The class attributes of a page.

A page is written as texts that do not contain `class=` and, between them, quoted `class=` attributes whose values have
no quotes inside. The search goes through the whole page from the left and takes what looks like an attribute. It takes
the values of the page and no others: the start of an attribute cannot begin in the text before it, and what a value
holds is passed over with it. Empty values are no match, but they have no tokens either.

- `found_filler`, `found_attribute`: the search passes over a text between attributes, and takes an attribute.
- `found_text`: so it finds the values of the page that are not empty.
- `words_unifyLineEnds`, `text_unified`: reading the page from a file changes its line ends, but no token.
- `html_read`: the tokens of the page as it is read are those of its values, in order.
-/
import Mathlib.Tactic
import ClassNaming.Extract.Markup
import ClassNaming.Proofs.Extract.Runs
import ClassNaming.Proofs.Text.Bytes

namespace ClassNaming.Extract

/-! ## Pages -/

/-- what every attribute starts with -/
def attributeStart : List Char := ['c', 'l', 'a', 's', 's', '=']

abbrev Quote := { c : Char // isQuote c = true }

/-- text in which no attribute starts -/
abbrev Filler := { cs : List Char // ¬ attributeStart <:+: cs }

/-- a quoted attribute, and the text up to the next one -/
structure Attribute where
  opening : Quote
  value : { cs : List Char // ∀ c ∈ cs, isQuote c = false }
  closing : Quote
  after : Filler

/-- a text, and the attributes that follow it -/
structure Page where
  lead : Filler
  attributes : List Attribute

/-- the attribute written down -/
def Attribute.text (a : Attribute) : List Char :=
  attributeStart ++ a.opening.1 :: (a.value.1 ++ a.closing.1 :: a.after.1)

namespace Page

/-- the page written down -/
def text (page : Page) : List Char := page.lead.1 ++ page.attributes.flatMap Attribute.text

/-- the values of the attributes, as they are written -/
def values (page : Page) : List String := page.attributes.map fun a => String.ofList a.value.1

end Page

/-! ## One step of the search -/

section Search

variable {names : List String} {value? : List Char → Option (List Char × List Char)}

/-- what is left behind a value is no longer than what the value was looked for in -/
def Shrinks (value? : List Char → Option (List Char × List Char)) : Prop :=
  ∀ cs value more, value? cs = some (value, more) → more.length ≤ cs.length

theorem length_lt_of_afterName? {cs rest : List Char} (h : afterName? names cs = some rest) :
    rest.length < cs.length := by
  obtain ⟨name, -, hname⟩ := List.exists_of_findSome?_eq_some h
  unfold after? at hname
  split_ifs at hname with hlead
  obtain rfl := Option.some.inj hname
  have hle := (List.isPrefixOf_iff_prefix.1 hlead).length_le
  simp only [List.length_append, List.length_singleton, List.length_drop] at hle ⊢
  omega

/-- what is left behind an attribute is shorter than the text it was found in -/
theorem length_lt_of_attribute (hvalue : Shrinks value?) {cs value more : List Char}
    (h : (afterName? names cs).bind value? = some (value, more)) : more.length < cs.length := by
  obtain ⟨start, hstart, hquoted⟩ := Option.bind_eq_some_iff.1 h
  calc more.length ≤ start.length := hvalue start value more hquoted
    _ < cs.length := length_lt_of_afterName? hstart

/-- fuel that is enough for the length of the text makes no difference -/
theorem attributeValues_fuel (hvalue : Shrinks value?) {fuel : Nat} {cs : List Char} (h : cs.length < fuel) :
    attributeValues names value? fuel cs = attributes names value? cs := by
  suffices hboth : ∀ fuel more cs, cs.length < fuel → cs.length < more →
      attributeValues names value? fuel cs = attributeValues names value? more cs from
    hboth fuel _ cs h (Nat.lt_succ_self _)
  clear h
  intro fuel
  induction fuel with
  | zero => exact fun _ _ h => absurd h (Nat.not_lt_zero _)
  | succ fuel ih =>
    intro more cs hfuel hmore
    obtain ⟨more, rfl⟩ : ∃ n, more = n + 1 := Nat.exists_eq_add_one.2 (by omega)
    cases cs with
    | nil => rfl
    | cons c rest =>
      simp only [attributeValues]
      split
      · rename_i value behind hfound
        have hshort := length_lt_of_attribute hvalue hfound
        rw [ih more behind (by omega) (by omega)]
      · rw [List.length_cons] at hfuel hmore
        exact ih more rest (by omega) (by omega)

theorem attributes_cons_none {c : Char} {rest : List Char} (h : (afterName? names (c :: rest)).bind value? = none) :
    attributes names value? (c :: rest) = attributes names value? rest := by
  simp only [attributes, List.length_cons, attributeValues, h]

theorem attributes_cons_some (hvalue : Shrinks value?) {c : Char} {rest value more : List Char}
    (h : (afterName? names (c :: rest)).bind value? = some (value, more)) :
    attributes names value? (c :: rest) = value :: attributes names value? more := by
  have hshort : more.length < rest.length + 1 := length_lt_of_attribute hvalue h
  rw [attributes, List.length_cons, attributeValues, h]
  simp only [attributeValues_fuel hvalue hshort]

/-- what an attribute of a name starts with -/
def startOf (name : String) : List Char := name.toList ++ ['=']

theorem after?_append (lead rest : List Char) : after? lead (lead ++ rest) = some rest := by
  rw [after?, if_pos (List.isPrefixOf_iff_prefix.2 (List.prefix_append lead rest)), List.drop_left]

theorem afterName?_startOf (name : String) (names : List String) (rest : List Char) :
    afterName? (name :: names) (startOf name ++ rest) = some rest := by
  have hfirst : after? (name.toList ++ ['=']) (startOf name ++ rest) = some rest := after?_append (startOf name) rest
  rw [afterName?, List.findSome?_cons, hfirst]

/-- the search passes over a text if no attribute starts in it, also none that ends behind it -/
theorem attributes_append {xs rest : List Char}
    (h : ∀ name ∈ names, ∀ x ys, x :: ys <:+ xs → ¬ startOf name <+: x :: (ys ++ rest)) :
    attributes names value? (xs ++ rest) = attributes names value? rest := by
  induction xs with
  | nil => rfl
  | cons x xs ih =>
    have hnone : afterName? names (x :: (xs ++ rest)) = none := by
      refine List.findSome?_eq_none_iff.2 fun name hname => ?_
      rw [after?, if_neg]
      rw [List.isPrefixOf_iff_prefix]
      exact h name hname x xs (List.suffix_refl _)
    rw [List.cons_append, attributes_cons_none (by rw [hnone, Option.bind_none])]
    exact ih fun name hname y ys hys => h name hname y ys (hys.trans (List.suffix_cons x xs))

/-- the search passes over what the first letter of the names is not in -/
theorem attributes_append_of_notMem {first : Char} (hnames : ∀ name ∈ names, (startOf name).head? = some first)
    {xs : List Char} (h : first ∉ xs) (rest : List Char) :
    attributes names value? (xs ++ rest) = attributes names value? rest := by
  refine attributes_append fun name hname x ys hys hstart => h (hys.mem ?_)
  obtain ⟨tail, htail⟩ := List.head?_eq_some_iff.1 (hnames name hname)
  rw [htail, List.cons_prefix_cons] at hstart
  exact hstart.1 ▸ List.mem_cons_self

/-- the search passes over a text in which no attribute starts, if what follows cannot complete a start -/
theorem attributes_append_of_free {xs rest : List Char} (hxs : ∀ name ∈ names, ¬ startOf name <:+: xs)
    (hrest : ∀ name ∈ names, ∀ c ∈ rest.head?, c ∉ (startOf name).tail) :
    attributes names value? (xs ++ rest) = attributes names value? rest := by
  refine attributes_append fun name hname x ys hys hstart => ?_
  rcases List.prefix_or_prefix_of_prefix hstart (List.prefix_append (x :: ys) rest) with hinside | ⟨tail, htail⟩
  · exact hxs name hname (hinside.isInfix.trans hys.isInfix)
  · -- `x :: ys` is a part of the start, and its tail stands at the beginning of `rest`
    rw [← List.cons_append, ← htail, List.prefix_append_right_inj] at hstart
    cases tail with
    | nil =>
      refine hxs name hname ?_
      rw [← htail, List.append_nil]
      exact hys.isInfix
    | cons d tail =>
      have hd : d ∈ (startOf name).tail := by
        rw [← htail]
        simp
      obtain ⟨more, rfl⟩ := hstart
      exact hrest name hname d rfl hd

end Search

/-! ## Quoted values -/

/-- what is left behind a quoted value is the end of what it was looked for in -/
theorem quotedValue?_suffix {cs value more : List Char} (h : quotedValue? cs = some (value, more)) : more <:+ cs := by
  cases cs with
  | nil => cases h
  | cons c rest =>
    rw [quotedValue?] at h
    split_ifs at h with hc
    cases htake : rest.takeWhile (!isQuote ·) with
    | nil =>
      rw [htake] at h
      cases h
    | cons v vs =>
      have hend := List.dropWhile_suffix (!isQuote ·) (l := rest)
      cases hdrop : rest.dropWhile (!isQuote ·) with
      | nil =>
        rw [htake, hdrop] at h
        cases h
      | cons d behind =>
        rw [htake, hdrop] at h
        obtain ⟨-, rfl⟩ := Prod.mk.inj (Option.some.inj h)
        rw [hdrop] at hend
        exact ((List.suffix_cons d behind).trans hend).trans (List.suffix_cons c rest)

theorem quotedValue?_shrinks : Shrinks quotedValue? :=
  fun _ _ _ h => (quotedValue?_suffix h).length_le

theorem Quote.ne_of_not (q : Quote) {c : Char} (h : isQuote c = false) : c ≠ q.1 := by
  rintro rfl
  rw [q.2] at h
  cases h

variable {value : List Char}

/-- a value without quotes is taken up to the closing quote, unless it is empty -/
theorem quotedValue?_quoted (opening closing : Quote) (hvalue : ∀ c ∈ value, isQuote c = false) (rest : List Char) :
    quotedValue? (opening.1 :: (value ++ closing.1 :: rest)) = if value = [] then none else some (value, rest) := by
  have hpass : ∀ c ∈ value, (!isQuote c) = true := fun c hc => by rw [hvalue c hc, Bool.not_false]
  have hstop : ∀ c ∈ (closing.1 :: rest).head?, (!isQuote c) = false := by simp [closing.2]
  have htake : (value ++ closing.1 :: rest).takeWhile (!isQuote ·) = value := takeWhile_append_stop hpass hstop
  have hdrop : (value ++ closing.1 :: rest).dropWhile (!isQuote ·) = closing.1 :: rest :=
    dropWhile_append_stop hpass hstop
  rw [quotedValue?, opening.2, htake, hdrop]
  cases value <;> simp

/-! ## The search through a page -/

/-- the values that the search finds in a text -/
abbrev found (cs : List Char) : List (List Char) := attributes [ "class"] quotedValue? cs

/-- there is no attribute left, or the next one starts here -/
def AtAttribute (rest : List Char) : Prop := rest = [] ∨ attributeStart <+: rest

theorem startOf_class : startOf "class" = attributeStart := by decide

/-- the search passes over a text in which no attribute starts: the start does not overlap with itself -/
theorem found_filler {gap rest : List Char} (hgap : ¬ attributeStart <:+: gap) (hrest : AtAttribute rest) :
    found (gap ++ rest) = found rest := by
  refine attributes_append_of_free ?_ ?_
  · simpa [startOf_class] using hgap
  · rcases hrest with rfl | ⟨more, rfl⟩
    · simp
    · simp [startOf_class, attributeStart]

/-- the search takes the value of an attribute if it is not empty, and goes on behind it -/
theorem found_attribute (a : Attribute) {rest : List Char} (hrest : AtAttribute rest) :
    found (a.text ++ rest) = (if a.value.1 = [] then [] else [a.value.1]) ++ found rest := by
  have hsplit : a.text ++ rest =
      'c' :: (attributeStart.tail ++ a.opening.1 :: (a.value.1 ++ a.closing.1 :: (a.after.1 ++ rest))) := by
    simp [Attribute.text, attributeStart]
  have hquoted : (afterName? [ "class"] (a.text ++ rest)).bind quotedValue? =
      if a.value.1 = [] then none else some (a.value.1, a.after.1 ++ rest) := by
    have htext : a.text ++ rest =
        startOf "class" ++ a.opening.1 :: (a.value.1 ++ a.closing.1 :: (a.after.1 ++ rest)) := by
      simp [startOf_class, Attribute.text]
    rw [htext, afterName?_startOf, Option.bind_some, quotedValue?_quoted a.opening a.closing a.value.2]
  rw [hsplit] at hquoted ⊢
  split_ifs at hquoted ⊢ with hempty
  · -- the start and the two quotes are passed over letter by letter
    have hletters : 'c' ∉ attributeStart.tail ++ [a.opening.1, a.closing.1] := by
      have hc : isQuote 'c' = false := by decide
      simp [attributeStart, Quote.ne_of_not _ hc]
    rw [found, attributes_cons_none hquoted, hempty, List.nil_append, List.nil_append]
    have hnames : ∀ name ∈ [ "class"], (startOf name).head? = some 'c' := by
      simp [startOf_class, attributeStart]
    have hpass : found ((attributeStart.tail ++ [a.opening.1, a.closing.1]) ++ (a.after.1 ++ rest)) =
        found (a.after.1 ++ rest) := attributes_append_of_notMem hnames hletters _
    rw [List.append_assoc] at hpass
    exact hpass.trans (found_filler a.after.2 hrest)
  · rw [found, attributes_cons_some quotedValue?_shrinks hquoted]
    exact congrArg _ (found_filler a.after.2 hrest)

theorem atAttribute_flatMap (as : List Attribute) : AtAttribute (as.flatMap Attribute.text) := by
  cases as with
  | nil => exact Or.inl rfl
  | cons a as => exact Or.inr ⟨_, by rw [List.flatMap_cons, Attribute.text, List.append_assoc]⟩

theorem found_flatMap (as : List Attribute) :
    found (as.flatMap Attribute.text) = (as.map (·.value.1)).filter (· ≠ []) := by
  induction as with
  | nil => rfl
  | cons a as ih =>
    rw [List.flatMap_cons, found_attribute a (atAttribute_flatMap as), ih, List.map_cons, List.filter_cons]
    by_cases h : a.value.1 = [] <;> simp [h]

/-- **The search finds the values of a page.** -/
theorem found_text (page : Page) : found page.text = (page.attributes.map (·.value.1)).filter (· ≠ []) := by
  rw [Page.text, found_filler page.lead.2 (atAttribute_flatMap page.attributes), found_flatMap]

theorem words_nil : words [] = [] := rfl

theorem flatMap_words_filter (values : List (List Char)) :
    (values.filter (· ≠ [])).flatMap words = values.flatMap words := by
  induction values with
  | nil => rfl
  | cons value values ih =>
    rw [List.filter_cons, List.flatMap_cons]
    split_ifs with h
    · rw [List.flatMap_cons, ih]
    · obtain rfl : value = [] := by simpa using h
      rw [ih, words_nil, List.nil_append]

/-! ## Line ends -/

/-- unifying line ends leaves the first piece as it is, and of the others those that are not empty -/
theorem pieces_unifyLineEnds (cs : List Char) : ∃ first others unified,
    pieces Text.isBlank cs = first :: others ∧ pieces Text.isBlank (Text.unifyLineEnds cs) = first :: unified ∧
      unified.filter (!·.isEmpty) = others.filter (!·.isEmpty) := by
  have hreturn : Text.isBlank '\r' = true := by decide
  have hfeed : Text.isBlank '\n' = true := by decide
  fun_induction Text.unifyLineEnds cs with
  | case1 => exact ⟨[], [], [], rfl, rfl, rfl⟩
  | case2 rest ih =>
    obtain ⟨first, others, unified, hrest, hunified, hsame⟩ := ih
    refine ⟨[], [] :: first :: others, first :: unified, ?_, ?_, ?_⟩
    · simp only [pieces, hreturn, hfeed, if_true, hrest]
    · simp only [pieces, hfeed, if_true, hunified]
    · simp [List.filter_cons, hsame]
  | case3 c rest hpair ih =>
    obtain ⟨first, others, unified, hrest, hunified, hsame⟩ := ih
    have hblank : Text.isBlank (if (c == '\r') = true then '\n' else c) = Text.isBlank c := by
      split_ifs with hc
      · rw [beq_iff_eq.1 hc, hreturn, hfeed]
      · rfl
    simp only [pieces, hblank, hrest, hunified]
    split_ifs with hgap hc
    · exact ⟨[], first :: others, first :: unified, rfl, rfl, by simp [List.filter_cons, hsame]⟩
    · exact absurd (beq_iff_eq.1 hc ▸ hreturn) hgap
    · exact ⟨c :: first, others, unified, rfl, rfl, hsame⟩

theorem words_unifyLineEnds (cs : List Char) : words (Text.unifyLineEnds cs) = words cs := by
  obtain ⟨first, others, unified, hcs, hunified, hsame⟩ := pieces_unifyLineEnds cs
  rw [words, words, hcs, hunified, List.filter_cons, List.filter_cons, hsame]

/-- a text between attributes with its line ends unified -/
def Filler.unified (gap : Filler) : Filler :=
  ⟨Text.unifyLineEnds gap.1, fun h => gap.2 (Text.infix_of_unifyLineEnds (by decide) h)⟩

/-- no quote comes of unifying line ends -/
theorem isQuote_of_mem_unifyLineEnds {cs : List Char} (h : ∀ c ∈ cs, isQuote c = false) :
    ∀ c ∈ Text.unifyLineEnds cs, isQuote c = false := by
  intro c hc
  rw [Bool.eq_false_iff]
  intro hquote
  have hfeed : '\n' ∉ [c] := by
    rw [List.mem_singleton]
    rintro rfl
    exact absurd hquote (by decide)
  have hcs := Text.infix_of_unifyLineEnds hfeed (List.singleton_infix_iff _ _ |>.2 hc)
  rw [h c (List.singleton_infix_iff _ _ |>.1 hcs)] at hquote
  cases hquote

namespace Attribute

/-- the attribute with its line ends unified -/
def unified (a : Attribute) : Attribute where
  opening := a.opening
  value := ⟨Text.unifyLineEnds a.value.1, isQuote_of_mem_unifyLineEnds a.value.2⟩
  closing := a.closing
  after := a.after.unified

theorem text_unified (a : Attribute) : Text.unifyLineEnds a.text = a.unified.text := by
  have hopening : a.opening.1 ≠ '\r' := (a.opening.ne_of_not (by decide)).symm
  have hclosing : a.closing.1 ≠ '\r' := (a.closing.ne_of_not (by decide)).symm
  have hend : (a.closing.1 :: a.after.1).head? ≠ some '\n' := by
    simpa using (a.closing.ne_of_not (by decide)).symm
  have hstart : Text.unifyLineEnds attributeStart = attributeStart := by decide
  have hquote : (a.opening.1 :: (a.value.1 ++ a.closing.1 :: a.after.1)).head? ≠ some '\n' := by
    simpa using (a.opening.ne_of_not (by decide)).symm
  rw [text, Text.unifyLineEnds_append _ hquote, hstart, Text.unifyLineEnds_cons hopening,
    Text.unifyLineEnds_append _ hend, Text.unifyLineEnds_cons hclosing]
  rfl

end Attribute

theorem head_of_atAttribute {rest : List Char} (h : AtAttribute rest) : rest.head? ≠ some '\n' := by
  rcases h with rfl | ⟨more, rfl⟩
  · decide
  · simp [attributeStart]

theorem unifyLineEnds_flatMap (as : List Attribute) :
    Text.unifyLineEnds (as.flatMap Attribute.text) = (as.map Attribute.unified).flatMap Attribute.text := by
  induction as with
  | nil => rfl
  | cons a as ih =>
    rw [List.flatMap_cons, Text.unifyLineEnds_append _ (head_of_atAttribute (atAttribute_flatMap as)), a.text_unified,
      ih]
    rfl

namespace Page

/-- the page with its line ends unified -/
def unified (page : Page) : Page := ⟨page.lead.unified, page.attributes.map Attribute.unified⟩

theorem text_unified (page : Page) : Text.unifyLineEnds page.text = page.unified.text := by
  rw [text, Text.unifyLineEnds_append _ (head_of_atAttribute (atAttribute_flatMap page.attributes)),
    unifyLineEnds_flatMap]
  rfl

/-- **The tokens of a page.** The tokens of a page that is read from a file are those of its values, in order. -/
theorem html_read (page : Page) :
    html (String.ofList (Text.unifyLineEnds page.text)) = page.values.flatMap classString := by
  have hsame : (fun a : Attribute => words a.unified.value.1) = fun a => words a.value.1 :=
    funext fun a => words_unifyLineEnds a.value.1
  have hwords : htmlWords page.unified.text = page.attributes.flatMap fun a => words a.value.1 := by
    change (found page.unified.text).flatMap words = _
    rw [found_text, flatMap_words_filter, List.flatMap_map, unified, List.flatMap_map, hsame]
  rw [text_unified, html, String.toList_ofList, hwords, List.map_flatMap, values, List.flatMap_map]
  simp only [classString, String.toList_ofList]

end Page

end ClassNaming.Extract
