/-
The forms of a report: what its JSON leaves out, and when its lines can be made.

- `Public`, `cleaned_public`: a value in which no member steers the layout is written as it is.
- `cleaned_steered`: of a mapping with steering members after its own, its own are written.
- `exists_hint`: a context of flags always comes to a hint or to none.
- `Laid`, `exists_render`: a report with groups of results, metrics, warnings and a status is rendered in every form that
  can be asked for.
-/
import Mathlib.Tactic.SplitIfs
import ClassNaming.Proofs.Value.Texts
import ClassNaming.Report.Render

namespace ClassNaming

/-! ## What JSON leaves out -/

/-- no member steers the layout, at any depth -/
inductive Public : Value → Prop
  | scalar (s : Scalar) : Public (.scalar s)
  | list {items : List Value} (h : ∀ v ∈ items, Public v) : Public (.list items)
  | map {es : Entries} (names : ∀ e ∈ es, isInternal e.1 = false) (h : ∀ e ∈ es, Public e.2) : Public (.map es)

theorem cleanedItems_eq (items : List Value) : cleanedItems items = items.map Value.cleaned := by
  induction items with
  | nil => rw [cleanedItems]; rfl
  | cons v items ih => rw [cleanedItems, ih]; rfl

theorem cleanedEntries_eq (es : Entries) :
    cleanedEntries es = (es.filter fun e => !isInternal e.1).map fun e => (e.1, e.2.cleaned) := by
  induction es with
  | nil => rw [cleanedEntries]; rfl
  | cons e es ih =>
    rw [cleanedEntries]
    by_cases hinternal : isInternal e.1 = true <;> simp [hinternal, ih]

theorem cleaned_public {v : Value} (h : Public v) : v.cleaned = v := by
  induction h with
  | scalar s => rw [Value.cleaned.eq_def]
  | list h ih => rw [Value.cleaned, cleanedItems_eq, List.map_congr_left ih, List.map_id']
  | @map es names h ih =>
    have hkept : (es.filter fun e => !isInternal e.1) = es := List.filter_eq_self.2 fun e he => by simpa using names e he
    have hsame : ∀ e ∈ es, (e.1, e.2.cleaned) = e := fun e he => Prod.ext rfl (ih e he)
    rw [Value.cleaned, cleanedEntries_eq, hkept, List.map_congr_left hsame, List.map_id']

/-- what steers the layout after the members of a mapping is left out -/
theorem cleaned_steered {es layout : Entries} (h : Public (.map es)) (hlayout : ∀ e ∈ layout, isInternal e.1 = true) :
    (Value.map (es ++ layout)).cleaned = .map es := by
  have hnone : (layout.filter fun e => !isInternal e.1) = [] :=
    List.filter_eq_nil_iff.2 fun e he => by simpa using hlayout e he
  have hown := cleaned_public h
  rw [Value.cleaned, cleanedEntries_eq] at hown ⊢
  rw [List.filter_append, hnone, List.append_nil, hown]

/-! ## Lines -/

namespace Frame

/-- a result without a kind -/
def IsResult (item : Value) : Prop :=
  ∃ (token message : String) (valid : Bool), item = .object [("token", .text token), ("valid", .bool valid),
    ("kind", .null), ("message", .text message)]

/-- a group: its name and its results -/
def IsGroup (group : Value) : Prop :=
  ∃ (name : String) (results : List Value), group = .object [("name", .text name), ("items", .list results)] ∧
    ∀ item ∈ results, IsResult item

variable (f : Frame)

theorem exists_resultLines {item : Value} (h : IsResult item) :
    ∃ lines, f.resultLines item = .ok lines ∧ AllText lines := by
  obtain ⟨token, message, valid, rfl⟩ := h
  have hline : f.resultLines (.object [("token", .text token), ("valid", .bool valid), ("kind", .null),
      ("message", .text message)]) = .ok (if message.isEmpty then
        [.text ("  " ++ f.symbols.resultLine token valid none)]
      else [.text ("  " ++ f.symbols.resultLine token valid none), .text ("    " ++ message)]) := by
    rfl
  refine ⟨_, hline, ?_⟩
  split_ifs
  · exact AllText.nil.cons _
  · exact (AllText.nil.cons _).cons _

theorem exists_resultsLines {items : List Value} (h : ∀ item ∈ items, IsResult item) :
    ∃ lines, f.resultsLines items = .ok lines ∧ AllText lines := by
  induction items with
  | nil => exact ⟨[], rfl, AllText.nil⟩
  | cons item items ih =>
    obtain ⟨hitem, hrest⟩ := List.forall_mem_cons.1 h
    obtain ⟨lines, hlines, htext⟩ := f.exists_resultLines hitem
    obtain ⟨more, hmore, hmoretext⟩ := ih hrest
    exact ⟨lines ++ more, by simp [resultsLines, hlines, hmore, bind, Except.bind, pure, Except.pure],
      htext.append hmoretext⟩

theorem exists_groupsLines {groups : List Value} (h : ∀ group ∈ groups, IsGroup group) :
    ∃ lines, f.groupsLines groups = .ok lines ∧ AllText lines := by
  induction groups with
  | nil => exact ⟨[], rfl, AllText.nil⟩
  | cons group groups ih =>
    obtain ⟨⟨name, results, rfl, hresults⟩, hrest⟩ := List.forall_mem_cons.1 h
    obtain ⟨lines, hlines, htext⟩ := f.exists_resultsLines hresults
    obtain ⟨more, hmore, hmoretext⟩ := ih hrest
    refine ⟨.text name :: lines ++ .text "" :: more, ?_, (htext.cons name).append (hmoretext.cons "")⟩
    rw [groupsLines]
    change (do
      let found ← f.resultsLines results
      return Value.text name :: found ++ Value.text "" :: (← f.groupsLines groups)) = _
    simp [hlines, hmore, bind, Except.bind, pure, Except.pure]

end Frame

/-! ## Reports with groups -/

/-- the members of a report with groups of results -/
structure Laid (es : Entries) : Prop where
  groups : ∃ groups, Entries.field? es "_groups" = some (.list groups) ∧ ∀ group ∈ groups, Frame.IsGroup group
  noItems : Entries.field? es "items" = none
  metrics : ∃ metrics, Entries.field? es "_metrics" = some (.map metrics)
  warnings : ∃ warnings, Entries.field? es "_warnings" = some (.list warnings)
  status : ∃ status, Entries.field? es "_status" = some (.map status)

namespace Frame

variable (f : Frame) {es : Entries}

theorem exists_metricLines (h : Laid es) : ∃ lines, metricLines es = .ok lines ∧ AllText lines := by
  obtain ⟨metrics, hmetrics⟩ := h.metrics
  refine ⟨metrics.map fun m => .text (m.1.shown ++ ": " ++ m.2.shown), by rw [metricLines, hmetrics]; rfl, ?_⟩
  exact List.forall_mem_map.2 fun m _ => ⟨_, rfl⟩

theorem allText_warnings (warnings : List Value) : AllText (warnings.map f.warningLine) :=
  List.forall_mem_map.2 fun _ _ => ⟨_, rfl⟩

theorem exists_statusLine (h : Laid es) : ∃ s, f.statusLine (Entries.fieldOrNull es "_status") = .ok (.text s) := by
  obtain ⟨status, hstatus⟩ := h.status
  have hfield : Entries.fieldOrNull es "_status" = .map status := by rw [Entries.fieldOrNull, hstatus]; rfl
  rw [hfield]
  exact ⟨_, rfl⟩

theorem exists_listBody (h : Laid es) : ∃ body, f.listBody? (.map es) = .ok body ∧ ∀ lines ∈ body, AllText lines := by
  obtain ⟨groups, hgroups, hresults⟩ := h.groups
  obtain ⟨lines, hlines, htext⟩ := f.exists_groupsLines hresults
  have hfield : Entries.fieldOrNull es "_groups" = .list groups := by rw [Entries.fieldOrNull, hgroups]; rfl
  have hitems : Entries.fieldOrNull es "items" = .null := by rw [Entries.fieldOrNull, h.noItems]; rfl
  cases hempty : groups.isEmpty with
  | true => exact ⟨none, by simp [listBody?, hfield, hitems, Value.isTruthy, Scalar.isTruthy, hempty, pure, Except.pure],
      by simp⟩
  | false =>
    refine ⟨some lines, ?_, by simpa using htext⟩
    simp [listBody?, hfield, Value.isTruthy, hempty, Value.items, hlines, bind, Except.bind, pure, Except.pure]

theorem exists_listTail (h : Laid es) : ∃ lines, f.listTail (.map es) = .ok lines ∧ AllText lines := by
  obtain ⟨counts, hcounts, hcountstext⟩ := exists_metricLines h
  obtain ⟨warnings, hwarnings⟩ := h.warnings
  obtain ⟨s, hs⟩ := f.exists_statusLine h
  have hbefore : AllText (counts ++ warnings.map f.warningLine) := hcountstext.append (f.allText_warnings warnings)
  refine ⟨(if (counts ++ warnings.map f.warningLine).isEmpty then [] else
      counts ++ warnings.map f.warningLine ++ [.text ""]) ++
    if (Entries.fieldOrNull es "_status").isTruthy then [.text s] else [], ?_, AllText.append ?_ ?_⟩
  · simp only [listTail, hcounts, hwarnings, hs, Option.getD_some, Value.items, bind, Except.bind, pure, Except.pure]
    by_cases htruthy : (Entries.fieldOrNull es "_status").isTruthy = true <;> simp [htruthy, Except.map]
  · split_ifs
    · exact AllText.nil
    · exact hbefore.append (AllText.nil.cons "")
  · split_ifs
    · exact AllText.nil.cons s
    · exact AllText.nil

theorem allText_titleLines (r : Report) : AllText (titleLines r) := by
  unfold titleLines
  split_ifs
  · exact AllText.nil
  · exact (AllText.nil.cons "").cons r.title

theorem exists_list {r : Report} (hdata : r.data = .map es) (h : Laid es) : ∃ text, f.list r = .ok text := by
  obtain ⟨body, hbody, hbodytext⟩ := f.exists_listBody h
  cases body with
  | none => exact ⟨r.emptyMessage, by simp [list, hdata, hbody, bind, Except.bind, pure, Except.pure]⟩
  | some lines =>
    obtain ⟨tail, htail, htailtext⟩ := f.exists_listTail h
    have hall := ((allText_titleLines r).append (hbodytext lines rfl)).append htailtext
    obtain ⟨text, htext⟩ := (Value.joinTexts_ok_iff "\n" _).2 hall
    refine ⟨String.ofList (Text.dropEndWhile (· == '\n') text.toList), ?_⟩
    simp only [list, hdata, hbody, htail, htext, bind, Except.bind, pure, Except.pure]

theorem exists_summary {r : Report} (hdata : r.data = .map es) (h : Laid es) : ∃ text, f.summary r = .ok text := by
  by_cases htruthy : (Value.map es).isTruthy = true
  · obtain ⟨counts, hcounts, hcountstext⟩ := exists_metricLines h
    obtain ⟨warnings, hwarnings⟩ := h.warnings
    obtain ⟨s, hs⟩ := f.exists_statusLine h
    have hnoted : AllText (if (Value.list warnings).isTruthy then .text "" :: warnings.map f.warningLine else []) := by
      split_ifs
      · exact (f.allText_warnings warnings).cons ""
      · exact AllText.nil
    have hlast : AllText (if (Entries.fieldOrNull es "_status").isTruthy then [.text "", .text s] else []) := by
      split_ifs
      · exact (AllText.nil.cons s).cons ""
      · exact AllText.nil
    have hall := (((allText_titleLines r).append hcountstext).append hnoted).append hlast
    obtain ⟨text, htext⟩ := (Value.joinTexts_ok_iff "\n" _).2 hall
    refine ⟨text, ?_⟩
    rw [← htext]
    simp only [summary, hdata, htruthy, hcounts, hwarnings, hs, Option.getD_some, Value.items, bind, Except.bind, pure,
      Except.pure]
    by_cases hnotes : (Value.list warnings).isTruthy = true <;>
      by_cases hstate : (Entries.fieldOrNull es "_status").isTruthy = true <;> simp [hnotes, hstate]
  · exact ⟨r.emptyMessage, by simp [summary, hdata, htruthy, pure, Except.pure]⟩

end Frame

/-! ## Hints -/

theorem exists_contextFlag (flags : Entries) (name : String) : ∃ on, contextFlag (.map flags) name = .ok on := by
  unfold contextFlag
  split_ifs
  · exact ⟨_, rfl⟩
  · exact ⟨_, rfl⟩

theorem exists_applies (flags : Entries) (free : Bool) (s : NextStep) : ∃ on, s.applies (.map flags) free = .ok on := by
  unfold NextStep.applies
  split
  · exact exists_contextFlag flags _
  · exact ⟨free, rfl⟩

theorem exists_firstStep (flags : Entries) (steps : List NextStep) : ∃ step, firstStep (.map flags) steps = .ok step := by
  induction steps with
  | nil => exact ⟨none, rfl⟩
  | cons s steps ih =>
    obtain ⟨on, hon⟩ := exists_applies flags false s
    rw [firstStep, hon]
    cases on with
    | true => exact ⟨some s, rfl⟩
    | false => exact ih

/-- a context of flags always comes to a hint or to none -/
theorem exists_hint (command : String) (flags : Entries) : ∃ hint, hint? command (.map flags) = .ok hint := by
  unfold hint?
  split
  · exact ⟨none, rfl⟩
  · rename_i rules _
    obtain ⟨step, hstep⟩ := exists_firstStep flags rules.alternatives
    obtain ⟨on, hon⟩ := exists_applies flags true rules.usual
    rw [hstep]
    cases step with
    | some s => exact ⟨some s.line, rfl⟩
    | none =>
      cases on with
      | true => exact ⟨some rules.usual.line, by simp [hon, bind, Except.bind, pure, Except.pure]⟩
      | false => exact ⟨none, by simp [hon, bind, Except.bind, pure, Except.pure]⟩

/-! ## All forms -/

namespace Report

theorem exists_format {r : Report} (hshape : ∃ shape ∈ Format.names, r.shape = .text shape) {word : String}
    (hword : word ∈ Format.names) : ∃ form, r.format (.text word) = .ok form := by
  obtain ⟨shape, hnamed, hshape⟩ := hshape
  simp only [Format.names, List.mem_cons, List.not_mem_nil, or_false] at hnamed hword
  rcases hword with rfl | rfl | rfl | rfl
  · rcases hnamed with rfl | rfl | rfl | rfl <;> exact ⟨_, by rw [format, hshape]; rfl⟩
  all_goals exact ⟨_, rfl⟩

/-- **A report with groups is rendered** in every form that can be asked for. -/
theorem exists_render {r : Report} {es flags : Entries} (f : Frame) (hdata : r.data = .map es) (hlaid : Laid es)
    (hshape : ∃ shape ∈ Format.names, r.shape = .text shape) (hcontext : r.context = .map flags) {word : String}
    (hword : word ∈ Format.names) : ∃ text, r.render f (.text word) = .ok text := by
  obtain ⟨form, hform⟩ := exists_format hshape hword
  obtain ⟨listed, hlisted⟩ := f.exists_list hdata hlaid
  obtain ⟨summed, hsummed⟩ := f.exists_summary hdata hlaid
  obtain ⟨hint, hhint⟩ := exists_hint r.command flags
  unfold render
  rw [hform, hcontext]
  cases form with
  | json => exact ⟨_, rfl⟩
  | list =>
    simp only [hlisted, hhint, bind, Except.bind]
    split_ifs
    · exact ⟨listed, rfl⟩
    · cases hint <;> exact ⟨_, rfl⟩
  | summary =>
    simp only [hsummed, hhint, bind, Except.bind]
    split_ifs
    · exact ⟨summed, rfl⟩
    · cases hint <;> exact ⟨_, rfl⟩

end Report

end ClassNaming
