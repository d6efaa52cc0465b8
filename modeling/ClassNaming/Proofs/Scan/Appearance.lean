/-
In which order the tokens of markup are reported.

Each token is kept together with the place in the text where its attribute begins. The tokens of markup are those of
the quoted attributes, in the order of their places, and then those of the template literals, in the order of theirs. A
literal that stands before a quoted attribute is therefore reported behind it.

- `places_values`, `places_stand`, `places_increase`: the attributes that a search takes, each with its place.
- `occurrences_tokens`, `taken_of_occurrence`: the tokens of markup, each with the place of its attribute.
- `inOrder_iff`: they are in the order of the text exactly if no literal stands before a quoted attribute.
- `firstSeen_unique`: of tokens in the order of the text, the distinct ones are in the order they are first seen.
- `markup_order`: what this comes to in the report on a file of markup.
- `literal_comes_last`: a literal before a quoted attribute.
-/
import ClassNaming.Proofs.Extract.Literals
import ClassNaming.Proofs.Scan.Findings

namespace ClassNaming

namespace Extract

/-! ## The places of attributes -/

section Places

variable {names : List String} {value? : List Char → Option (List Char × List Char)}

/-- the attributes in what is left of a text of `size` characters, each with the place in the text where it begins -/
def placesFrom (names : List String) (value? : List Char → Option (List Char × List Char)) (size : Nat) :
    Nat → List Char → List (Nat × List Char)
  | 0, _ => []
  | _ + 1, [] => []
  | fuel + 1, c :: rest =>
    match (afterName? names (c :: rest)).bind value? with
    | some (value, more) => (size - (rest.length + 1), value) :: placesFrom names value? size fuel more
    | none => placesFrom names value? size fuel rest

/-- the attributes of a whole text, with their places -/
def places (names : List String) (value? : List Char → Option (List Char × List Char)) (cs : List Char) :
    List (Nat × List Char) :=
  placesFrom names value? cs.length (cs.length + 1) cs

theorem placesFrom_values (size fuel : Nat) (cs : List Char) :
    (placesFrom names value? size fuel cs).map (·.2) = attributeValues names value? fuel cs := by
  induction fuel generalizing cs with
  | zero => rfl
  | succ fuel ih =>
    cases cs with
    | nil => rfl
    | cons c rest =>
      rw [placesFrom, attributeValues]
      cases (afterName? names (c :: rest)).bind value? with
      | none => exact ih rest
      | some found => exact congrArg (found.1 :: ·) (ih found.2)

theorem places_values (cs : List Char) : (places names value? cs).map (·.2) = attributes names value? cs :=
  placesFrom_values cs.length (cs.length + 1) cs

/-- the places lie in what is left of the text, and they increase -/
theorem placesFrom_increase (hvalue : Shrinks value?) {size : Nat} (fuel : Nat) {cs : List Char}
    (hsize : cs.length ≤ size) : (∀ a ∈ placesFrom names value? size fuel cs, size - cs.length ≤ a.1) ∧
      (placesFrom names value? size fuel cs).Pairwise (·.1 < ·.1) := by
  induction fuel generalizing cs with
  | zero => exact ⟨fun _ h => absurd h List.not_mem_nil, List.Pairwise.nil⟩
  | succ fuel ih =>
    cases cs with
    | nil => exact ⟨fun _ h => absurd h List.not_mem_nil, List.Pairwise.nil⟩
    | cons c rest =>
      rw [List.length_cons] at hsize
      simp only [placesFrom, List.length_cons]
      split
      · rename_i value more hfound
        have hshort : more.length < rest.length + 1 := length_lt_of_attribute hvalue hfound
        obtain ⟨hbound, hincrease⟩ := @ih more (by omega)
        refine ⟨?_, List.pairwise_cons.2 ⟨?_, hincrease⟩⟩
        · intro a ha
          rcases List.mem_cons.1 ha with rfl | ha
          · exact le_rfl
          · have hplace := hbound a ha
            omega
        · intro a ha
          have hplace := hbound a ha
          simp only
          omega
      · obtain ⟨hbound, hincrease⟩ := @ih rest (by omega)
        refine ⟨?_, hincrease⟩
        intro a ha
        have hplace := hbound a ha
        omega

theorem places_increase (hvalue : Shrinks value?) (cs : List Char) :
    (places names value? cs).Pairwise (·.1 < ·.1) :=
  (placesFrom_increase hvalue _ le_rfl).2

/-- an attribute begins at the place of the text, and this is its value -/
def Stands (names : List String) (value? : List Char → Option (List Char × List Char)) (text : List Char)
    (a : Nat × List Char) : Prop :=
  ∃ more, (afterName? names (text.drop a.1)).bind value? = some (a.2, more)

theorem afterName?_suffix {cs rest : List Char} (h : afterName? names cs = some rest) : rest <:+ cs := by
  obtain ⟨name, -, hname⟩ := List.exists_of_findSome?_eq_some h
  unfold after? at hname
  split_ifs at hname
  obtain rfl := Option.some.inj hname
  exact List.drop_suffix _ cs

theorem placesFrom_stand (hvalue : ∀ {cs value more}, value? cs = some (value, more) → more <:+ cs)
    {text : List Char} (fuel : Nat) {cs : List Char} (hcs : cs <:+ text) :
    ∀ a ∈ placesFrom names value? text.length fuel cs, Stands names value? text a := by
  induction fuel generalizing cs with
  | zero => exact fun _ h => absurd h List.not_mem_nil
  | succ fuel ih =>
    cases cs with
    | nil => exact fun _ h => absurd h List.not_mem_nil
    | cons c rest =>
      intro a ha
      simp only [placesFrom] at ha
      split at ha
      · rename_i value more hfound
        rcases List.mem_cons.1 ha with rfl | ha
        · refine ⟨more, ?_⟩
          have hhere : text.drop (text.length - (rest.length + 1)) = c :: rest :=
            (List.suffix_iff_eq_drop.1 hcs).symm
          rw [hhere, hfound]
        · obtain ⟨start, hstart, htaken⟩ := Option.bind_eq_some_iff.1 hfound
          exact ih (((hvalue htaken).trans (afterName?_suffix hstart)).trans hcs) a ha
      · exact ih ((List.suffix_cons c rest).trans hcs) a ha

theorem places_stand (hvalue : ∀ {cs value more}, value? cs = some (value, more) → more <:+ cs) (text : List Char) :
    ∀ a ∈ places names value? text, Stands names value? text a :=
  placesFrom_stand hvalue _ (List.suffix_refl text)

end Places

/-! ## Tokens with their places -/

/-- a token, and the place in the text where its attribute begins -/
structure Occurrence where
  place : Nat
  token : String
deriving DecidableEq, Repr

/-- the tokens of an attribute -/
def occurrencesOf (split : List Char → List (List Char)) (a : Nat × List Char) : List Occurrence :=
  (split a.2).map fun word => ⟨a.1, String.ofList word⟩

section

variable (value? : List Char → Option (List Char × List Char)) (split : List Char → List (List Char))

/-- the tokens of the attributes of markup that have values of one form -/
def occurrencesBy (text : List Char) : List Occurrence :=
  (places markupNames value? text).flatMap (occurrencesOf split)

/-- the token is one of an attribute of that form, which begins at its place -/
def TakenBy (text : List Char) (o : Occurrence) : Prop :=
  ∃ value, Stands markupNames value? text (o.place, value) ∧ o.token.toList ∈ split value

theorem tokens_occurrencesBy (text : List Char) : (occurrencesBy value? split text).map (·.token) =
    ((attributes markupNames value? text).flatMap split).map String.ofList := by
  rw [← places_values, occurrencesBy, List.map_flatMap, List.flatMap_map, List.map_flatMap]
  simp only [occurrencesOf, List.map_map]
  rfl

variable {value? split}

theorem taken_of_mem (hvalue : ∀ {cs value more}, value? cs = some (value, more) → more <:+ cs) {text : List Char}
    {o : Occurrence} (h : o ∈ occurrencesBy value? split text) : TakenBy value? split text o := by
  obtain ⟨a, ha, ho⟩ := List.mem_flatMap.1 h
  obtain ⟨word, hword, rfl⟩ := List.mem_map.1 ho
  exact ⟨a.2, places_stand hvalue text a ha, by rwa [String.toList_ofList]⟩

end

/-- the tokens of the quoted attributes of markup -/
abbrev quotedOccurrences (text : List Char) : List Occurrence := occurrencesBy quotedValue? words text

/-- the tokens of the template literals of markup -/
abbrev literalOccurrences (text : List Char) : List Occurrence := occurrencesBy templateValue? literalWords text

/-- the tokens of markup as they come out -/
def occurrences (text : List Char) : List Occurrence := quotedOccurrences text ++ literalOccurrences text

theorem occurrences_tokens (text : List Char) : (occurrences text).map (·.token) = markup (String.ofList text) := by
  rw [occurrences, List.map_append, tokens_occurrencesBy, tokens_occurrencesBy, markup, String.toList_ofList,
    markupWords, List.map_append]

/-- each token is one of a quoted attribute or of a template literal that begins at its place -/
theorem taken_of_occurrence {text : List Char} {o : Occurrence} (h : o ∈ occurrences text) :
    TakenBy quotedValue? words text o ∨ TakenBy templateValue? literalWords text o :=
  (List.mem_append.1 h).imp (taken_of_mem quotedValue?_suffix) (taken_of_mem templateValue?_suffix)

/-- no place has both a quoted attribute and a template literal -/
theorem place_ne {text : List Char} {q l : Occurrence} (hq : q ∈ quotedOccurrences text)
    (hl : l ∈ literalOccurrences text) : q.place ≠ l.place := by
  intro hsame
  obtain ⟨_, ⟨_, hquoted⟩, -⟩ := taken_of_mem quotedValue?_suffix hq
  obtain ⟨_, ⟨_, hliteral⟩, -⟩ := taken_of_mem templateValue?_suffix hl
  obtain ⟨start, hstart, hfound⟩ := Option.bind_eq_some_iff.1 hquoted
  rw [← hsame, hstart, Option.bind_some, templateValue?_of_quoted hfound] at hliteral
  cases hliteral

/-! ## The order of the text -/

/-- the tokens come in the order of the places of their attributes -/
def InOrder (found : List Occurrence) : Prop := found.Pairwise (·.place ≤ ·.place)

theorem inOrder_occurrencesBy {value? : List Char → Option (List Char × List Char)} (hvalue : Shrinks value?)
    (split : List Char → List (List Char)) (text : List Char) : InOrder (occurrencesBy value? split text) := by
  refine List.pairwise_flatMap.2 ⟨?_, ?_⟩
  · intro a _
    exact List.pairwise_map.2 (List.pairwise_of_forall fun _ _ => le_rfl)
  · refine (places_increase hvalue text).imp ?_
    intro a b hlt x hx y hy
    obtain ⟨_, -, rfl⟩ := List.mem_map.1 hx
    obtain ⟨_, -, rfl⟩ := List.mem_map.1 hy
    exact hlt.le

theorem inOrder_quoted (text : List Char) : InOrder (quotedOccurrences text) :=
  inOrder_occurrencesBy quotedValue?_shrinks words text

theorem inOrder_literal (text : List Char) : InOrder (literalOccurrences text) :=
  inOrder_occurrencesBy templateValue?_shrinks literalWords text

/-- the tokens come in the order of the text exactly if no literal stands before a quoted attribute -/
theorem inOrder_iff (text : List Char) : InOrder (occurrences text) ↔
    ∀ q ∈ quotedOccurrences text, ∀ l ∈ literalOccurrences text, q.place < l.place := by
  unfold InOrder occurrences
  rw [List.pairwise_append]
  constructor
  · intro h q hq l hl
    exact lt_of_le_of_ne (h.2.2 q hq l hl) (place_ne hq hl)
  · intro h
    exact ⟨inOrder_quoted text, inOrder_literal text, fun q hq l hl => (h q hq l hl).le⟩

/-! ## Distinct tokens in the order they are first seen -/

/-- each token is seen no later than the ones behind it -/
def FirstSeen (found : List Occurrence) (tokens : List String) : Prop :=
  tokens.Pairwise fun t u => ∀ o ∈ found, o.token = u → ∃ e ∈ found, e.token = t ∧ e.place ≤ o.place

theorem firstSeen_unique {found : List Occurrence} (h : InOrder found) :
    FirstSeen found (unique (found.map (·.token))) := by
  induction found with
  | nil => exact List.Pairwise.nil
  | cons first found ih =>
    obtain ⟨hfirst, hrest⟩ := List.pairwise_cons.1 h
    rw [List.map_cons, unique]
    refine List.pairwise_cons.2 ⟨?_, ?_⟩
    · intro u _ o ho _
      refine ⟨first, List.mem_cons_self, rfl, ?_⟩
      rcases List.mem_cons.1 ho with rfl | ho
      · exact le_rfl
      · exact hfirst o ho
    · refine ((ih hrest).filter _).imp_of_mem ?_
      intro t u _ hu hseen o ho htoken
      -- a token that is left differs from the first one, so it occurs in the rest
      have hother : o ∈ found := by
        rcases List.mem_cons.1 ho with rfl | ho
        · exact absurd htoken.symm (by simpa using (List.mem_filter.1 hu).2)
        · exact ho
      obtain ⟨e, he, hsame, hplace⟩ := hseen o hother htoken
      exact ⟨e, List.mem_cons_of_mem first he, hsame, hplace⟩

theorem mem_unique {token : String} {tokens : List String} : token ∈ unique tokens ↔ token ∈ tokens := by
  induction tokens with
  | nil => rfl
  | cons t tokens ih =>
    rw [unique, List.mem_cons, List.mem_filter, ih, List.mem_cons]
    by_cases h : token = t <;> simp [h]

/-- of two lists of tokens, the distinct ones are those of the first and those of the second that are not in it -/
theorem unique_append (xs ys : List String) : unique (xs ++ ys) = unique xs ++ (unique ys).filter (· ∉ xs) := by
  induction xs with
  | nil => simp [unique]
  | cons x xs ih =>
    rw [List.cons_append, unique, ih, unique, List.filter_append, List.filter_filter, List.cons_append]
    congr 2
    refine List.filter_congr ?_
    intro y _
    by_cases h : y = x <;> simp [h]

end Extract

/-! ## Reports on markup -/

open Extract

/-- **The tokens of markup are in the order of the text exactly if no template literal stands before a quoted
attribute.** The report on a file of markup lists the distinct tokens of the quoted attributes, in the order they are
first seen in quoted attributes, and behind them the tokens that occur in template literals only, in the order they are
first seen there. If no token of a literal stands before one of a quoted attribute, then this is the order in which the
tokens are first seen in the text. -/
theorem markup_order (text : List Char) :
    (occurrences text).map (·.token) = markup (String.ofList text) ∧
    (∀ o ∈ occurrences text, TakenBy quotedValue? words text o ∨ TakenBy templateValue? literalWords text o) ∧
    (InOrder (occurrences text) ↔ ∀ q ∈ quotedOccurrences text, ∀ l ∈ literalOccurrences text, q.place < l.place) ∧
    ∀ (s : Scanner) (files : Tree) (p : Path), s.registry.sourceFor? p = some .markup → files.readText p = .ok text →
      ∃ report : FileReport, ∃ quoted literal : List String,
        (s.fileWork files p).1 = { outcome := .ok report } ∧
        quoted = unique ((quotedOccurrences text).map (·.token)) ∧ FirstSeen (quotedOccurrences text) quoted ∧
        literal = unique ((literalOccurrences text).map (·.token)) ∧ FirstSeen (literalOccurrences text) literal ∧
        report.classes = quoted ++ literal.filter (· ∉ quoted) ∧
        (InOrder (occurrences text) → FirstSeen (occurrences text) report.classes) := by
  refine ⟨occurrences_tokens text, fun _ => taken_of_occurrence, inOrder_iff text, ?_⟩
  intro s files p hsource htext
  have htokens : Source.markup.extract (String.ofList text) = .tokens ((occurrences text).map (·.token)) :=
    congrArg _ (occurrences_tokens text).symm
  refine ⟨_, _, _, s.fileWork_tokens hsource htext htokens, rfl, firstSeen_unique (inOrder_quoted text), rfl,
    firstSeen_unique (inOrder_literal text), ?_, firstSeen_unique⟩
  simp only [occurrences, List.map_append, unique_append, mem_unique]

/-- markup with a template literal before a quoted attribute -/
def literalBeforeQuoted : List Char := "<a className=\x7b\x60x\x60\x7d class=\"y\">".toList

/-- the token of the literal is seen first, but comes last -/
theorem literal_comes_last :
    markup (String.ofList literalBeforeQuoted) = ["y", "x"] ∧
    occurrences literalBeforeQuoted = [⟨19, "y"⟩, ⟨3, "x"⟩] ∧
    ¬ InOrder (occurrences literalBeforeQuoted) ∧
    ¬ FirstSeen (occurrences literalBeforeQuoted) (unique (markup (String.ofList literalBeforeQuoted))) := by
  have htokens : markup (String.ofList literalBeforeQuoted) = ["y", "x"] := by decide +kernel
  have hplaces : occurrences literalBeforeQuoted = [⟨19, "y"⟩, ⟨3, "x"⟩] := by decide +kernel
  have hunique : unique ["y", "x"] = ["y", "x"] := by decide
  rw [htokens, hplaces, hunique]
  refine ⟨rfl, rfl, ?_, ?_⟩
  · simp [InOrder]
  · simp [FirstSeen]

/-- markup with a quoted attribute before a template literal that repeats its token -/
def quotedBeforeLiteral : List Char := "<a class='y'><b className=\x7b\x60y x\x60\x7d>".toList

/-- a quoted attribute before a literal: the tokens are reported in the order they are first seen -/
theorem quoted_comes_first :
    let s := Scanner.create .default .builtin (.adding [])
    let files : Tree := .dir [("App.jsx", .file (Utf8.encode quotedBeforeLiteral))]
    let p : Path := ⟨"", ["App.jsx"]⟩
    s.registry.sourceFor? p = some .markup ∧ files.readText p = .ok quotedBeforeLiteral ∧
      ∃ report : FileReport, (s.fileWork files p).1 = { outcome := .ok report } ∧ report.classes = ["y", "x"] ∧
        FirstSeen (occurrences quotedBeforeLiteral) report.classes := by
  intro s files p
  have hsuffix : Text.lower p.suffix ∈ Source.markup.lowered := by
    have hp : p.suffix = ".jsx" := by decide
    rw [hp, Text.lower_of_small (by decide), Registry.lowered_markup]
    decide
  have hsource : s.registry.sourceFor? p = some .markup := by
    rw [Scanner.create_registry, ite_self, Registry.sourceFor?_markup hsuffix]
  have hfile : files.find p = .ok (.file (Utf8.encode quotedBeforeLiteral)) := rfl
  have hends : Text.unifyLineEnds quotedBeforeLiteral = quotedBeforeLiteral := by decide
  have htext : files.readText p = .ok quotedBeforeLiteral := by
    rw [Scanner.readText_encode hfile, hends]
  obtain ⟨-, -, hiff, hfile⟩ := markup_order quotedBeforeLiteral
  obtain ⟨report, quoted, literal, hreport, hquoted, -, hliteral, -, hclasses, hseen⟩ := hfile s files p hsource htext
  have hfirst : quotedOccurrences quotedBeforeLiteral = [⟨3, "y"⟩] := by decide +kernel
  have hlast : literalOccurrences quotedBeforeLiteral = [⟨16, "y"⟩, ⟨16, "x"⟩] := by decide +kernel
  have horder : InOrder (occurrences quotedBeforeLiteral) := by
    rw [hiff, hfirst, hlast]
    decide
  rw [hfirst] at hquoted
  rw [hlast] at hliteral
  refine ⟨hsource, htext, report, hreport, ?_, hseen horder⟩
  rw [hclasses, hquoted, hliteral]
  decide

end ClassNaming
