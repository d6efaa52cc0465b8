/-
Sheets without ampersands.

Where no `&` stands in a sheet, no selector is put together from two, so the open rules do not matter: each line that
opens a rule records the names behind its dots, and other lines record nothing. The search for names goes through all
lines, so it finds these names too, each as often and in the same order.

- `dottedNames_line`: a line that opens a rule has its classes behind dots, and no other dots.
- `expandLines_plain`: the classes of a sheet are the names in the lines that open its rules.
- `dottedNames_linesOf`: the names in a text are those in its lines, in order.
- `nested_sublist_stylesheet`: so the classes of the rules are a part of the names in the stylesheet.
-/
import ClassNaming.Proofs.Extract.Names
import ClassNaming.Proofs.Extract.Sheets

namespace ClassNaming.Extract

/-! ## Names in a line -/

/-- nothing is found in front of the first dot -/
theorem dottedNames_undotted {xs : List Char} (h : '.' ∉ xs) (rest : List Char) :
    dottedNames (xs ++ rest) = dottedNames rest := by
  rw [dottedNames_eq_runsAfter, dottedNames_eq_runsAfter]
  exact namesAfter_undotted h (Option.some_ne_none _).symm rest

theorem dottedNames_nil : dottedNames [] = [] := by rw [dottedNames]

theorem dottedNames_of_notMem {cs : List Char} (h : '.' ∉ cs) : dottedNames cs = [] := by
  rw [← List.append_nil cs, dottedNames_undotted h, dottedNames_nil]

theorem dottedNames_cons {c : Char} (h : c ≠ '.') (rest : List Char) : dottedNames (c :: rest) = dottedNames rest := by
  have hdot : '.' ∉ [c] := by simpa using h.symm
  exact dottedNames_undotted hdot rest

theorem dot_notMem_blanks {blanks : List Char} (h : ∀ c ∈ blanks, Text.isBlank c = true) : '.' ∉ blanks :=
  fun hc => absurd (h '.' hc) (by decide)

theorem dottedNames_skipBlank (cs : List Char) : dottedNames (skipBlank cs) = dottedNames cs := by
  have hblanks := dot_notMem_blanks (List.all_eq_true.1 (List.all_takeWhile (p := Text.isBlank) (l := cs)))
  rw [skipBlank, ← dottedNames_undotted hblanks, List.takeWhile_append_dropWhile]

/-- trimming takes no name away -/
theorem dottedNames_trim (line : List Char) : dottedNames (Text.trim line) = dottedNames line := by
  obtain ⟨lead, trail, hlead, htrail, hline⟩ := exists_trimmed line
  have hstop : ∀ c ∈ trail.head?, isNamePart c = false :=
    fun c hc => not_part_of_blank (htrail c (List.mem_of_mem_head? hc))
  conv_rhs => rw [hline, dottedNames_undotted (dot_notMem_blanks hlead), dottedNames_append hstop,
    dottedNames_of_notMem (dot_notMem_blanks htrail), List.append_nil]

/-- no dot stands in what ends a line of selectors -/
theorem dottedNames_openingTail {cs : List Char} (h : isOpeningTail cs = true) : dottedNames cs = [] := by
  rw [← dottedNames_skipBlank]
  rw [isOpeningTail] at h
  split at h
  · rename_i hnil
    rw [hnil, dottedNames_nil]
  · rename_i c rest hcons
    obtain ⟨rfl, hrest⟩ : c = '\x7b' ∧ skipBlank rest = [] := by simpa using h
    rw [hcons, dottedNames_cons (by decide), ← dottedNames_skipBlank, hrest, dottedNames_nil]

/-! ## A line that opens a rule -/

/-- a selector has the name of its class behind a dot, and no other dot -/
theorem dottedNames_selector {part : List Char} (h : IsSelector part) (hamp : '&' ∉ part) :
    dottedNames part = (className? part).toList := by
  obtain ⟨mark, first, rest, hfirst, rfl⟩ := h
  have hstart : isNameStart first = true := by
    rcases (by simpa [isSelectorStart] using hfirst : isNameStart first = true ∨ first = '&') with h | rfl
    · exact h
    · exact absurd (by simp) hamp
  have hdot : '.' ∉ first :: rest.1 := by
    intro hmem
    rcases List.mem_cons.1 hmem with rfl | hmem
    · exact absurd hstart (by decide)
    · exact isNamePart_ne_dot (rest.2 _ hmem) rfl
  cases mark with
  | dot =>
    have hend : ∀ c ∈ ([] : List Char).head?, isNamePart c = false := by simp
    have htake := takeWhile_append_stop rest.2 hend
    have hdrop := dropWhile_append_stop rest.2 hend
    rw [List.append_nil] at htake hdrop
    rw [Mark.text, List.singleton_append, dottedNames, if_pos (by simp [hstart]), htake, hdrop, dottedNames_nil]
    rfl
  | hash =>
    rw [Mark.text, List.singleton_append, dottedNames_cons (by decide), dottedNames_of_notMem hdot]
    rfl
  | bare =>
    have hnone : className? (first :: rest.1) = none :=
      className?_eq_none fun hfirst => hdot (List.mem_of_mem_head? hfirst)
    rw [Mark.text, List.nil_append, dottedNames_of_notMem hdot, hnone]
    rfl

theorem filterMap_cons_toList (part : List Char) (parts : List (List Char)) :
    (part :: parts).filterMap className? = (className? part).toList ++ parts.filterMap className? := by
  rw [List.filterMap_cons]
  cases className? part <;> rfl

/-- what follows a selector on its line has the names of the other selectors -/
theorem dottedNames_read {cs name rest : List Char} (h : selectorPart? cs = some (name, rest)) (hamp : '&' ∉ cs) :
    dottedNames cs = (className? name).toList ++ dottedNames rest ∧ '&' ∉ name ∧ '&' ∉ rest := by
  obtain ⟨hname, rfl, hstop⟩ := selectorPart?_eq_some h
  rw [List.mem_append, not_or] at hamp
  exact ⟨by rw [dottedNames_append hstop, dottedNames_selector hname hamp.1], hamp⟩

theorem dottedNames_more {cs : List Char} {parts : List (List Char)} (h : MoreSelectors cs parts) (hamp : '&' ∉ cs) :
    dottedNames cs = parts.filterMap className? ∧ ∀ part ∈ parts, '&' ∉ part := by
  induction h with
  | none htail => exact ⟨dottedNames_openingTail htail, fun _ h => absurd h List.not_mem_nil⟩
  | @comma cs rest name more parts hcomma hname _ ih =>
    have hsub : skipBlank rest <:+ cs :=
      (List.dropWhile_suffix _).trans ((List.suffix_cons ',' rest).trans (hcomma ▸ List.dropWhile_suffix _))
    obtain ⟨hread, hampName, hampMore⟩ := dottedNames_read hname fun hc => hamp (hsub.mem hc)
    obtain ⟨hmore, hparts⟩ := ih hampMore
    refine ⟨?_, List.forall_mem_cons.2 ⟨hampName, hparts⟩⟩
    rw [← dottedNames_skipBlank, hcomma, dottedNames_cons (by decide), ← dottedNames_skipBlank, hread, hmore,
      filterMap_cons_toList]

/-- **A line that opens a rule has its classes behind dots, and no other dots.** -/
theorem dottedNames_line {line : List Char} {parts : List (List Char)} (h : opening? line = some parts)
    (hamp : '&' ∉ line) : dottedNames line = parts.filterMap className? ∧ ∀ part ∈ parts, '&' ∉ part := by
  obtain ⟨name, rest, more, hname, hmore, rfl⟩ := opening?_eq_some h
  obtain ⟨hread, hampName, hampRest⟩ := dottedNames_read hname hamp
  obtain ⟨hnames, hparts⟩ := dottedNames_more hmore hampRest
  exact ⟨by rw [hread, hnames, filterMap_cons_toList], List.forall_mem_cons.2 ⟨hampName, hparts⟩⟩

/-! ## The lines of a sheet -/

/-- the line opens a rule -/
def opens (line : List Char) : Bool := (opening? (Text.trim line)).isSome

theorem resolve_of_notMem {part : List Char} (h : '&' ∉ part) (parent : List Char) : resolve parent part = part := by
  unfold resolve
  split
  · exact absurd List.mem_cons_self h
  · rfl

/-- a line records the names in it if it opens a rule, and nothing otherwise -/
theorem step_plain_found (n : Nest) {line : List Char} (hamp : '&' ∉ line) :
    (n.step line).found = n.found ++ if opens line then dottedNames line else [] := by
  have hfound : ∀ opened : Nest, (if (Text.trim line).contains '\x7d' then
      { opened with stack := opened.stack.tail } else opened).found = opened.found := by
    intro opened
    split_ifs <;> rfl
  rw [Nest.step, hfound]
  cases hopen : opening? (Text.trim line) with
  | none => simp [opens, hopen]
  | some parts =>
    obtain ⟨hnames, hparts⟩ := dottedNames_line hopen fun hc => hamp (mem_of_mem_trim hc)
    have hsame : parts.map (resolve (n.stack.headD [])) = parts :=
      List.map_congr_left (fun part hp => resolve_of_notMem (hparts part hp) _) |>.trans (List.map_id parts)
    have hpush : (n.push parts).found = n.found ++ dottedNames line := by
      rw [← dottedNames_trim, hnames]
      simp only [Nest.push, hsame]
    simp only [opens, hopen, hpush, Option.isSome_some, if_true]

/-- **The classes of a sheet are the names in the lines that open its rules.** -/
theorem expandLines_plain {lines : List (List Char)} (hamp : ∀ line ∈ lines, '&' ∉ line) :
    expandLines lines = (lines.filter opens).flatMap dottedNames := by
  have hrun : ∀ n : Nest, (lines.foldl Nest.step n).found = n.found ++ (lines.filter opens).flatMap dottedNames := by
    induction lines with
    | nil => intro n; simp
    | cons line lines ih =>
      obtain ⟨hline, hlines⟩ := List.forall_mem_cons.1 hamp
      intro n
      rw [List.foldl_cons, ih hlines, step_plain_found n hline, List.append_assoc, List.filter_cons]
      split_ifs <;> simp
  exact hrun Nest.start

/-- the names in a text are those in its lines -/
theorem dottedNames_joined (lines : List (List Char)) : dottedNames (joined lines) = lines.flatMap dottedNames := by
  induction lines with
  | nil => exact dottedNames_nil
  | cons line lines ih =>
    cases lines with
    | nil => simp [joined]
    | cons next lines =>
      have hstop : ∀ c ∈ ('\n' :: joined (next :: lines)).head?, isNamePart c = false := by
        simp; decide
      rw [joined_cons_cons, dottedNames_append hstop, dottedNames_cons (by decide), ih, ← List.flatMap_cons]

theorem dottedNames_linesOf (cs : List Char) : (linesOf cs).flatMap dottedNames = dottedNames cs := by
  rw [← dottedNames_joined, joined_linesOf]

/-! ## Both readings of a stylesheet -/

/-- **Every class of the rules is found in the stylesheet.** Without ampersands, the classes that are recorded rule by
rule are among the names that are found in the whole stylesheet, each as often and in the same order. -/
theorem nested_sublist_stylesheet (s : String) (hamp : '&' ∉ s.toList) : (nested s).Sublist (stylesheet s) := by
  have hlines : ∀ line ∈ linesOf s.toList, '&' ∉ line := by
    intro line hline hc
    have hmem := mem_joined hline hc
    rw [joined_linesOf] at hmem
    exact hamp hmem
  have hnested : nested s = (((linesOf s.toList).filter opens).flatMap dottedNames).map String.ofList :=
    congrArg _ (expandLines_plain hlines)
  rw [hnested, stylesheet, selector, ← dottedNames_linesOf]
  exact (List.filter_sublist.flatMap dottedNames).map String.ofList

/-- a sheet with a selector that opens no rule -/
def hoverSheet : String := ".card, #x \x7b\n  .info\n  \x7b\n  \x7d\n  .on:hover \x7b \x7d\n\x7d"

/-- the class of a rule that is not read is found in the stylesheet only -/
theorem nested_sublist_hoverSheet : '&' ∉ hoverSheet.toList ∧ nested hoverSheet = ["card", "info"] ∧
    stylesheet hoverSheet = ["card", "info", "on"] ∧ (nested hoverSheet).Sublist (stylesheet hoverSheet) := by
  have hamp : '&' ∉ hoverSheet.toList := by decide +kernel
  exact ⟨hamp, by decide +kernel, by decide +kernel, nested_sublist_stylesheet hoverSheet hamp⟩

/-- behind an ampersand stands a class that is found nowhere -/
example : ¬ (nested ".a\n&_x").Sublist (stylesheet ".a\n&_x") := by decide +kernel

end ClassNaming.Extract
