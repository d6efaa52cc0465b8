/-
The static parts of a template literal.

A template literal is static text with interpolations in it. Each interpolation is replaced by a blank, so the static
parts keep apart, and nothing that stands in an interpolation is left. The search for attributes takes the whole
literal: neither the text around it nor the literal itself can start another attribute or complete one.

- `templateValue?_suffix`, `templateValue?_literal`: what is taken as a literal, and what is left behind it.
- `statics_part`, `statics_interpolation`: static text is kept, and an interpolation becomes a blank.
- `literalWords_template`: so the tokens of a literal are those of its static parts, in order.
- `markup_literal`: markup with one literal has these tokens and no others.
-/
import ClassNaming.Proofs.Extract.Pages
import ClassNaming.Proofs.Extract.Words

namespace ClassNaming.Extract

/-! ## Literals -/

/-- static text: no literal ends in it, and no interpolation begins -/
abbrev StaticPart := { cs : List Char // '\x60' ∉ cs ∧ ¬ ['$', '\x7b'] <:+: cs }

/-- what stands in an interpolation -/
abbrev Expression := { cs : List Char // cs ≠ [] ∧ '\x7d' ∉ cs ∧ '\x60' ∉ cs }

/-- static text, and interpolations with the static text that follows each -/
structure Template where
  first : StaticPart
  more : List (Expression × StaticPart)

namespace Template

/-- each interpolation with the static text behind it -/
def moreText : List (Expression × StaticPart) → List Char
  | [] => []
  | (expression, part) :: more => '$' :: '\x7b' :: (expression.1 ++ '\x7d' :: (part.1 ++ moreText more))

/-- the template written down -/
def text (t : Template) : List Char := t.first.1 ++ moreText t.more

/-- the static parts, in order -/
def parts (t : Template) : List (List Char) := t.first.1 :: t.more.map (·.2.1)

end Template

/-- the names of the attributes of markup -/
abbrev markupNames : List String := [ "className", "class"]

/-- text in which no attribute of markup starts -/
abbrev MarkupText := { cs : List Char // ∀ name ∈ markupNames, ¬ startOf name <:+: cs }

/-- markup with one attribute, which has a template literal -/
structure LiteralPage where
  lead : MarkupText
  template : Template
  trail : MarkupText
  notEmpty : template.text ≠ []
  plain : ∀ name ∈ markupNames, ¬ startOf name <:+: template.text

namespace LiteralPage

/-- the literal in its braces, and the text behind it -/
def braced (page : LiteralPage) : List Char :=
  '\x7b' :: '\x60' :: (page.template.text ++ '\x60' :: '\x7d' :: page.trail.1)

/-- the markup written down -/
def text (page : LiteralPage) : List Char := page.lead.1 ++ (startOf "className" ++ page.braced)

end LiteralPage

/-! ## What is taken as a literal -/

/-- what is left behind a template literal is the end of what it was looked for in -/
theorem templateValue?_suffix {cs value more : List Char} (h : templateValue? cs = some (value, more)) :
    more <:+ cs := by
  unfold templateValue? at h
  split at h
  · rename_i rest
    split at h
    · cases h
    · rename_i hdrop _
      obtain ⟨-, rfl⟩ := Prod.mk.inj (Option.some.inj h)
      have hend := List.dropWhile_suffix (· != '\x60') (l := rest)
      rw [hdrop] at hend
      exact ((List.suffix_append ['\x60', '\x7d'] _).trans hend).trans (List.suffix_append ['\x7b', '\x60'] rest)
    · cases h
  · cases h

theorem templateValue?_shrinks : Shrinks templateValue? :=
  fun _ _ _ h => (templateValue?_suffix h).length_le

/-- a quoted value and a template literal do not begin alike -/
theorem templateValue?_of_quoted {cs : List Char} {found : List Char × List Char} (h : quotedValue? cs = some found) :
    templateValue? cs = none := by
  unfold templateValue?
  split
  · simp [quotedValue?, isQuote] at h
  · rfl

/-- a literal is taken up to the backtick that ends it -/
theorem templateValue?_literal {value : List Char} (hne : value ≠ []) (hvalue : '\x60' ∉ value) (rest : List Char) :
    templateValue? ('\x7b' :: '\x60' :: (value ++ '\x60' :: '\x7d' :: rest)) = some (value, rest) := by
  have hpass : ∀ c ∈ value, (c != '\x60') = true := fun c hc => bne_iff_ne.2 fun heq => hvalue (heq ▸ hc)
  have hstop : ∀ c ∈ ('\x60' :: '\x7d' :: rest).head?, (c != '\x60') = false := by simp
  have htake : (value ++ '\x60' :: '\x7d' :: rest).takeWhile (· != '\x60') = value := takeWhile_append_stop hpass hstop
  have hdrop : (value ++ '\x60' :: '\x7d' :: rest).dropWhile (· != '\x60') = '\x60' :: '\x7d' :: rest :=
    dropWhile_append_stop hpass hstop
  rw [templateValue?, htake, hdrop]
  cases value with
  | nil => exact absurd rfl hne
  | cons c value => rfl

/-! ## Interpolations -/

/-- a literal with each interpolation replaced by a blank -/
abbrev statics (cs : List Char) : List Char := staticText (cs.length + 1) cs

/-- what is left behind an interpolation is shorter than the text it was found in -/
theorem length_lt_of_afterInterpolation? {cs more : List Char} (h : afterInterpolation? cs = some more) :
    more.length < cs.length := by
  unfold afterInterpolation? at h
  split at h
  · rename_i rest
    split at h
    · cases h
    · cases h
    · rename_i hdrop _
      obtain rfl := Option.some.inj h
      have hend := (List.dropWhile_suffix (· != '\x7d') (l := rest)).length_le
      rw [hdrop] at hend
      simp only [List.length_cons] at hend ⊢
      omega
  · cases h

/-- an interpolation goes on up to the brace that ends it -/
theorem afterInterpolation?_expression (expression : Expression) (rest : List Char) :
    afterInterpolation? ('$' :: '\x7b' :: (expression.1 ++ '\x7d' :: rest)) = some rest := by
  obtain ⟨cs, hne, hcs, -⟩ := expression
  have hpass : ∀ c ∈ cs, (c != '\x7d') = true := fun c hc => bne_iff_ne.2 fun heq => hcs (heq ▸ hc)
  have hstop : ∀ c ∈ ('\x7d' :: rest).head?, (c != '\x7d') = false := by simp
  rw [afterInterpolation?, takeWhile_append_stop hpass hstop, dropWhile_append_stop hpass hstop]
  cases cs with
  | nil => exact absurd rfl hne
  | cons c cs => rfl

theorem afterInterpolation?_eq_none {cs : List Char} (h : ¬ ['$', '\x7b'] <+: cs) : afterInterpolation? cs = none := by
  unfold afterInterpolation?
  split
  · exact absurd (List.prefix_append ['$', '\x7b'] _) h
  · rfl

/-- fuel that is enough for the length of the text makes no difference -/
theorem staticText_fuel {fuel : Nat} {cs : List Char} (h : cs.length < fuel) : staticText fuel cs = statics cs := by
  suffices hboth : ∀ fuel more cs, cs.length < fuel → cs.length < more → staticText fuel cs = staticText more cs from
    hboth fuel _ cs h (Nat.lt_succ_self _)
  clear h
  intro fuel
  induction fuel with
  | zero => exact fun _ _ h => absurd h (Nat.not_lt_zero _)
  | succ fuel ih =>
    intro more cs hfuel hmore
    obtain ⟨more, rfl⟩ : ∃ n, more = n + 1 := Nat.exists_eq_add_one.2 (by omega)
    cases cs with
    | nil => rfl
    | cons c rest =>
      rw [List.length_cons] at hfuel hmore
      simp only [staticText]
      split
      · rename_i behind hfound
        have hshort : behind.length < rest.length + 1 := length_lt_of_afterInterpolation? hfound
        rw [ih more behind (by omega) (by omega)]
      · rw [ih more rest (by omega) (by omega)]

theorem statics_cons_none {c : Char} {rest : List Char} (h : afterInterpolation? (c :: rest) = none) :
    statics (c :: rest) = c :: statics rest := by
  simp only [statics, List.length_cons, staticText, h]

theorem statics_cons_some {c : Char} {rest more : List Char} (h : afterInterpolation? (c :: rest) = some more) :
    statics (c :: rest) = ' ' :: statics more := by
  have hshort : more.length < rest.length + 1 := length_lt_of_afterInterpolation? h
  rw [statics, List.length_cons, staticText, h]
  simp only [staticText_fuel hshort]

/-- static text is kept as it is, up to the next interpolation -/
theorem statics_part {part : List Char} (hpart : ¬ ['$', '\x7b'] <:+: part) {rest : List Char}
    (hrest : rest.head? ≠ some '\x7b') : statics (part ++ rest) = part ++ statics rest := by
  induction part with
  | nil => rfl
  | cons c part ih =>
    have hnone : ¬ ['$', '\x7b'] <+: c :: (part ++ rest) := by
      intro hstart
      obtain ⟨rfl, hbrace⟩ := List.cons_prefix_cons.1 hstart
      -- the brace stands in the text itself, since what follows does not start with one
      cases part with
      | nil =>
        obtain ⟨more, hmore⟩ := hbrace
        rw [List.nil_append] at hmore
        exact hrest (hmore ▸ rfl)
      | cons d part =>
        obtain ⟨rfl, -⟩ := List.cons_prefix_cons.1 hbrace
        exact hpart (List.prefix_append ['$', '\x7b'] part).isInfix
    rw [List.cons_append, statics_cons_none (afterInterpolation?_eq_none hnone),
      ih fun h => hpart (h.trans (List.suffix_cons c part).isInfix), List.cons_append]

theorem statics_interpolation (expression : Expression) (rest : List Char) :
    statics ('$' :: '\x7b' :: (expression.1 ++ '\x7d' :: rest)) = ' ' :: statics rest :=
  statics_cons_some (afterInterpolation?_expression expression rest)

theorem Template.head_moreText (more : List (Expression × StaticPart)) : (moreText more).head? ≠ some '\x7b' := by
  cases more <;> simp [moreText]

/-- **The tokens of a literal are those of its static parts.** -/
theorem literalWords_template (t : Template) : literalWords t.text = t.parts.flatMap words := by
  have hmore : ∀ (part : StaticPart) (more : List (Expression × StaticPart)),
      words (statics (part.1 ++ Template.moreText more)) = (part.1 :: more.map (·.2.1)).flatMap words := by
    intro part more
    induction more generalizing part with
    | nil =>
      rw [statics_part part.2.2 (Template.head_moreText []), Template.moreText]
      simp [staticText]
    | cons next more ih =>
      obtain ⟨expression, behind⟩ := next
      have hblank : Text.isBlank ' ' = true := by decide
      rw [statics_part part.2.2 (Template.head_moreText _), Template.moreText, statics_interpolation,
        words_append_blank hblank, ih behind]
      rfl
  exact hmore t.first t.more

/-! ## Markup with a literal -/

section

variable {value? : List Char → Option (List Char × List Char)}

theorem startOf_markup : ∀ name ∈ markupNames, (startOf name).head? = some 'c' := by decide

/-- nothing is found in text in which no attribute starts -/
theorem attributes_markupText (text : MarkupText) : attributes markupNames value? text.1 = [] := by
  have hpass : attributes markupNames value? (text.1 ++ []) = attributes markupNames value? [] :=
    attributes_append_of_free text.2 (by simp)
  rwa [List.append_nil] at hpass

/-- the search comes to the literal: its start does not overlap with itself -/
theorem attributes_lead (lead : MarkupText) (rest : List Char) :
    attributes markupNames value? (lead.1 ++ (startOf "className" ++ rest)) =
      attributes markupNames value? (startOf "className" ++ rest) := by
  have hself : ∀ name ∈ markupNames, 'c' ∉ (startOf name).tail := by decide
  refine attributes_append_of_free lead.2 fun name hname c hc => ?_
  have hfirst : (startOf "className").head? = some 'c' := startOf_markup _ List.mem_cons_self
  rw [List.head?_append, hfirst] at hc
  obtain rfl : 'c' = c := by simpa using hc
  exact hself name hname

/-- a literal that is not taken is passed over: what surrounds it completes no start -/
theorem attributes_braced (page : LiteralPage) : attributes markupNames value? page.braced = [] := by
  have hend : ∀ name ∈ markupNames, '\x60' ∉ (startOf name).tail := by decide
  have hleft : 'c' ∉ ['\x7b', '\x60'] := by decide
  have hright : 'c' ∉ ['\x60', '\x7d'] := by decide
  have hclosing : attributes markupNames value? ('\x60' :: '\x7d' :: page.trail.1) = [] :=
    (attributes_append_of_notMem startOf_markup hright _).trans (attributes_markupText page.trail)
  have htemplate : attributes markupNames value? (page.template.text ++ '\x60' :: '\x7d' :: page.trail.1) = [] := by
    rw [attributes_append_of_free page.plain, hclosing]
    intro name hname c hc
    obtain rfl : '\x60' = c := by simpa using hc
    exact hend name hname
  exact (attributes_append_of_notMem startOf_markup hleft _).trans htemplate

end

theorem Template.backtick_notMem (t : Template) : '\x60' ∉ t.text := by
  have hmore : ∀ more : List (Expression × StaticPart), '\x60' ∉ moreText more := by
    intro more
    induction more with
    | nil => exact List.not_mem_nil
    | cons next more ih =>
      obtain ⟨expression, part⟩ := next
      simp [moreText, expression.2.2.2, part.2.1, ih]
  exact fun h => (List.mem_append.1 h).elim t.first.2.1 (hmore t.more)

/-- no quoted attribute is found -/
theorem attributes_quoted (page : LiteralPage) : attributes markupNames quotedValue? page.text = [] := by
  have hnone : (afterName? markupNames (startOf "className" ++ page.braced)).bind quotedValue? = none := by
    rw [afterName?_startOf]
    rfl
  have hletters : 'c' ∉ [ 'l', 'a', 's', 's', 'N', 'a', 'm', 'e', '='] := by decide
  calc attributes markupNames quotedValue? page.text
      = attributes markupNames quotedValue? (startOf "className" ++ page.braced) := attributes_lead page.lead _
    _ = attributes markupNames quotedValue? page.braced :=
        (attributes_cons_none hnone).trans (attributes_append_of_notMem startOf_markup hletters page.braced)
    _ = [] := attributes_braced page

/-- the literal is found, and nothing else -/
theorem attributes_literal (page : LiteralPage) :
    attributes markupNames templateValue? page.text = [page.template.text] := by
  have hfound : (afterName? markupNames (startOf "className" ++ page.braced)).bind templateValue? =
      some (page.template.text, page.trail.1) := by
    rw [afterName?_startOf]
    exact templateValue?_literal page.notEmpty page.template.backtick_notMem page.trail.1
  calc attributes markupNames templateValue? page.text
      = attributes markupNames templateValue? (startOf "className" ++ page.braced) := attributes_lead page.lead _
    _ = page.template.text :: attributes markupNames templateValue? page.trail.1 :=
        attributes_cons_some templateValue?_shrinks hfound
    _ = [page.template.text] := by rw [attributes_markupText]

/-- **The tokens of a template literal are those of its static parts.** They come in the order of the parts. What stands
on the two sides of an interpolation is never one token, and nothing that stands in an interpolation is reported. -/
theorem markup_literal (page : LiteralPage) : markup (String.ofList page.text) =
    page.template.parts.flatMap fun part => classString (String.ofList part) := by
  rw [markup, String.toList_ofList, markupWords, attributes_quoted, attributes_literal]
  simp [literalWords_template, classString, List.map_flatMap]

/-- a literal with a quoted expression between a dollar sign and a hyphen -/
def cardPage : LiteralPage where
  lead := ⟨"<div ".toList, by decide⟩
  template :=
    { first := ⟨"card$".toList, by decide⟩
      more := [(⟨"open ? '$\x7b is' : no".toList, by decide⟩, ⟨"-big \x7b".toList, by decide⟩)] }
  trail := ⟨" />".toList, by decide⟩
  notEmpty := by decide
  plain := by decide

example :
    String.ofList cardPage.text = "<div className=\x7b\x60card$$\x7bopen ? '$\x7b is' : no\x7d-big \x7b\x60\x7d />" ∧
      markup (String.ofList cardPage.text) = ["card$", "-big", "\x7b"] := by decide +kernel

end ClassNaming.Extract
