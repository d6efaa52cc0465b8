/-
What the classes of nested rules look like, whatever text they come from.

A selector behind `&` is put together from the innermost open selector and name characters. Name characters bring no dot
to the front and add nothing else, so every open selector that starts with a dot goes on as one token, also where braces
do not match or no rule is open.

- `IsToken`: a letter, an underscore or an ampersand with name characters behind it.
- `IsEntry.resolve`: putting a selector behind an open one keeps its shape.
- `shaped_step`, `shaped_run`: so do the lines of a text, one by one and all together.
- `nested_shaped`: what this comes to for the open selectors, for the classes and for those who judge them.
-/
import ClassNaming.Naming.Verdict
import ClassNaming.Proofs.Extract.ClosedBlock
import ClassNaming.Proofs.Extract.PlainSheets

namespace ClassNaming.Extract

/-! ## Tokens -/

/-- a first character of a selector, and name characters behind it -/
def IsToken (cs : List Char) : Prop :=
  ∃ first rest, cs = first :: rest ∧ isSelectorStart first = true ∧ ∀ c ∈ rest, isNamePart c = true

namespace IsToken

variable {token : List Char}

theorem append (h : IsToken token) {more : List Char} (hmore : ∀ c ∈ more, isNamePart c = true) :
    IsToken (token ++ more) := by
  obtain ⟨first, rest, rfl, hfirst, hrest⟩ := h
  exact ⟨first, rest ++ more, rfl, hfirst, List.forall_mem_append.2 ⟨hrest, hmore⟩⟩

theorem ne_nil (h : IsToken token) : token ≠ [] := by
  obtain ⟨first, rest, rfl, -⟩ := h
  exact List.cons_ne_nil first rest

theorem mem (h : IsToken token) {c : Char} (hc : c ∈ token) : isNamePart c = true ∨ c = '&' := by
  obtain ⟨first, rest, rfl, hfirst, hrest⟩ := h
  rcases List.mem_cons.1 hc with rfl | hc
  · rcases (by simpa [isSelectorStart] using hfirst : isNameStart c = true ∨ c = '&') with hstart | hamp
    · exact Or.inl (isNamePart_of_start hstart)
    · exact Or.inr hamp
  · exact Or.inl (hrest c hc)

/-- no blank, dot or brace stands in a token -/
theorem mem_clean (h : IsToken token) {c : Char} (hc : c ∈ token) :
    Text.isBlank c = false ∧ c ≠ '.' ∧ c ≠ '\x7b' ∧ c ≠ '\x7d' := by
  rcases h.mem hc with hpart | rfl
  · refine ⟨not_blank_of_part hpart, isNamePart_ne_dot hpart, ?_, ?_⟩
    · rintro rfl
      exact absurd hpart (by decide)
    · rintro rfl
      exact absurd hpart (by decide)
  · decide

/-- a token behind a dot is a selector -/
theorem isSelector (h : IsToken token) : IsSelector ('.' :: token) := by
  obtain ⟨first, rest, rfl, hfirst, hrest⟩ := h
  exact ⟨.dot, first, ⟨rest, hrest⟩, hfirst, rfl⟩

/-- a token without an ampersand is found again behind a dot -/
theorem dottedNames (h : IsToken token) (hamp : '&' ∉ token) : Extract.dottedNames ('.' :: token) = [token] :=
  dottedNames_selector h.isSelector (by simpa using hamp)

end IsToken

/-! ## Open selectors -/

/-- a selector that names no class, or a dot and a token -/
def IsEntry (s : List Char) : Prop := Undotted s ∨ ∃ token, IsToken token ∧ s = '.' :: token

theorem IsSelector.isEntry {part : List Char} (h : IsSelector part) : IsEntry part := by
  obtain ⟨mark, first, rest, hfirst, rfl⟩ := h
  cases mark with
  | dot => exact Or.inr ⟨first :: rest.1, ⟨first, rest.1, rfl, hfirst, rest.2⟩, rfl⟩
  | hash => exact Or.inl (by simp [Undotted, Mark.text])
  | bare =>
    refine Or.inl fun hdot => ?_
    obtain rfl : first = '.' := by simpa [Mark.text] using hdot
    exact absurd hfirst (by decide)

namespace IsEntry

variable {s : List Char}

theorem append (h : IsEntry s) {more : List Char} (hmore : ∀ c ∈ more, isNamePart c = true) : IsEntry (s ++ more) := by
  rcases h with hs | ⟨token, htoken, rfl⟩
  · exact Or.inl (hs.append hmore)
  · exact Or.inr ⟨token ++ more, htoken.append hmore, rfl⟩

/-- a selector inside a rule has the shape that the selector of the rule has -/
theorem resolve (h : IsEntry s) {part : List Char} (hp : IsSelector part) : IsEntry (resolve s part) := by
  unfold Extract.resolve
  split
  · rename_i rest
    exact h.append (hp.isPart rest rfl)
  · exact hp.isEntry

theorem isToken (h : IsEntry s) {token : List Char} (hclass : className? s = some token) : IsToken token := by
  rcases h with hs | ⟨token', htoken, rfl⟩
  · rw [className?_eq_none hs] at hclass
    cases hclass
  · obtain rfl : token' = token := Option.some.inj hclass
    exact htoken

end IsEntry

/-! ## The lines of a text -/

/-- every open selector and every recorded class has its shape -/
structure Nest.Shaped (n : Nest) : Prop where
  stack : ∀ s ∈ n.stack, IsEntry s
  found : ∀ token ∈ n.found, IsToken token

/-- a line read up to the rule that it may open; a brace in it is not yet taken -/
def Nest.opened (n : Nest) (line : List Char) : Nest :=
  match opening? (Text.trim line) with
  | some parts => n.push parts
  | none => n

theorem step_eq_opened (n : Nest) (line : List Char) : n.step line =
    if (Text.trim line).contains '\x7d' then { n.opened line with stack := (n.opened line).stack.tail }
    else n.opened line := rfl

theorem shaped_start : Nest.start.Shaped :=
  ⟨fun _ h => absurd h List.not_mem_nil, fun _ h => absurd h List.not_mem_nil⟩

theorem shaped_parent {n : Nest} (h : n.Shaped) : IsEntry (n.stack.headD []) := by
  cases hstack : n.stack with
  | nil => exact Or.inl (by simp [Undotted])
  | cons s stack => exact h.stack s (hstack ▸ List.mem_cons_self)

theorem shaped_push {n : Nest} (h : n.Shaped) {parts : List (List Char)} (hp : ∀ part ∈ parts, IsSelector part) :
    (n.push parts).Shaped := by
  have hresolved : ∀ s ∈ parts.map (resolve (n.stack.headD [])), IsEntry s := by
    intro s hs
    obtain ⟨part, hpart, rfl⟩ := List.mem_map.1 hs
    exact (shaped_parent h).resolve (hp part hpart)
  refine ⟨?_, ?_⟩
  · have hfirst : IsEntry ((parts.map (resolve (n.stack.headD []))).headD []) := by
      cases hparts : parts.map (resolve (n.stack.headD [])) with
      | nil => exact Or.inl (by simp [Undotted])
      | cons s rest => exact hresolved s (hparts ▸ List.mem_cons_self)
    exact List.forall_mem_cons.2 ⟨hfirst, h.stack⟩
  · refine List.forall_mem_append.2 ⟨h.found, fun token htoken => ?_⟩
    obtain ⟨s, hs, hclass⟩ := List.mem_filterMap.1 htoken
    exact (hresolved s hs).isToken hclass

theorem shaped_opened {n : Nest} (h : n.Shaped) (line : List Char) : (n.opened line).Shaped := by
  unfold Nest.opened
  split
  · rename_i parts hopen
    exact shaped_push h (opening?_selectors hopen)
  · exact h

/-- one line keeps the shapes, whether it opens a rule, closes one, does both or neither -/
theorem shaped_step {n : Nest} (h : n.Shaped) (line : List Char) : (n.step line).Shaped := by
  have hopened := shaped_opened h line
  rw [step_eq_opened]
  split_ifs
  · exact ⟨fun s hs => hopened.stack s (List.mem_of_mem_tail hs), hopened.found⟩
  · exact hopened

theorem shaped_run {n : Nest} (h : n.Shaped) (lines : List (List Char)) : (lines.foldl Nest.step n).Shaped := by
  induction lines generalizing n with
  | nil => exact h
  | cons line lines ih => exact ih (shaped_step h line)

/-! ## Texts -/

theorem isToken_of_nested {s token : String} (h : token ∈ nested s) : IsToken token.toList := by
  obtain ⟨cs, hcs, rfl⟩ := List.mem_map.1 h
  rw [String.toList_ofList]
  exact (shaped_run shaped_start _).found cs hcs

/-- **The shape of nested classes.** In any text, at the start, after each line and between a rule that a line opens and
the one that it closes, an open selector names no class or is a dot and a token. So every class is a token, nobody who
judges the classes sees an empty one or one with a blank, a dot or a brace, and a class without an ampersand is the one
that a selector finds behind a dot. -/
theorem nested_shaped (s : String) :
    (∀ before line after, linesOf s.toList = before ++ line :: after →
      let n := before.foldl Nest.step Nest.start
      ∀ state ∈ [n, n.opened line, n.step line], ∀ entry ∈ state.stack, IsEntry entry) ∧
    (∀ token ∈ nested s, IsToken token.toList) ∧
    (∀ rules, ∀ judged ∈ judgeNested rules s, judged.token ≠ "" ∧
      ∀ c ∈ judged.token.toList, Text.isBlank c = false ∧ c ≠ '.' ∧ c ≠ '\x7b' ∧ c ≠ '\x7d') ∧
    (∀ token ∈ nested s, '&' ∉ token.toList → selector ("." ++ token) = [token]) := by
  refine ⟨?_, fun token h => isToken_of_nested h, ?_, ?_⟩
  · intro before line after _ n state hstate
    have hn : n.Shaped := shaped_run shaped_start before
    simp only [List.mem_cons, List.not_mem_nil, or_false] at hstate
    rcases hstate with rfl | rfl | rfl
    · exact hn.stack
    · exact (shaped_opened hn line).stack
    · exact (shaped_step hn line).stack
  · intro rules judged hjudged
    obtain ⟨token, htoken, rfl⟩ := List.mem_map.1 hjudged
    have hshape := isToken_of_nested htoken
    exact ⟨fun hempty => hshape.ne_nil (String.toList_eq_nil_iff.2 hempty), fun c hc => hshape.mem_clean hc⟩
  · intro token htoken hamp
    have hdot : ("." ++ token).toList = '.' :: token.toList := by simp
    rw [selector, hdot, (isToken_of_nested htoken).dottedNames hamp, List.map_singleton, String.ofList_toList]

/-- where no rule is open, an ampersand stands in a class only behind a dot, and from there it is handed down -/
example : nested "\x7d\x7d\n&_x\n.&-y, .b\n&_z \x7b\n&__w" = ["&-y", "b", "&-y_z", "&-y_z__w"] := by decide +kernel

end ClassNaming.Extract
