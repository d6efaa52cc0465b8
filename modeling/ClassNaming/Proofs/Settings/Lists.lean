/-
Lists of settings and the text that shows them.

A list is shown with commas between its texts, and set by a text that is cut at every comma. There is no escape, so a
text that holds a comma is shown in a way that is read as several.

- `exists_texts`: a list that passes its check has texts only, so it can be shown.
- `held_of_edit`: after a call that is not refused the manager has the settings that the text makes.
- `load_of_environment`: without files the list of the environment is what a manager loads.
- `lists_survive_iff`: what is shown brings back the list exactly if every text in it is plain.
- `quantifier_cut`: a utility with a comma that is shown and set, and comes back as two.
-/
import ClassNaming.Proofs.Naming.MoreUtilities
import ClassNaming.Proofs.Settings.Unwritten
import ClassNaming.Proofs.Text.Listed

namespace ClassNaming

theorem sources_of_readUtilities {index : Nat} {vs : List Value} {extra : List (String × Pattern)}
    (h : readUtilities index vs = .ok extra) : vs = extra.map fun u => .text u.1 := by
  induction vs generalizing index extra with
  | nil =>
    cases h
    rfl
  | cons v vs ih =>
    obtain ⟨first, hfirst, h⟩ := bind_eq_ok h
    obtain ⟨rest, hrest, h⟩ := bind_eq_ok h
    cases h
    rw [List.map_cons, ← ih hrest, ← (isReading_of_readUtility hfirst).1]

namespace Manager

open Settings

/-! ## Showing a list -/

/-- the settings that are lists -/
def Setting.IsList (k : Setting) : Prop := k = .customUtilities ∨ k = .excludeDirs

theorem exists_texts {s : Settings} {k : Setting} (hk : k.IsList) (h : problemAt s k = .ok none) :
    ∃ items, s.get k = .texts items := by
  rcases hk with rfl | rfl
  · rw [problemAt, rulesProblem] at h
    split at h
    · rename_i extra hextra
      refine ⟨extra.map (·.1), ?_⟩
      rw [Settings.get, sources_of_readUtilities hextra, Value.texts, List.map_map]
      rfl
    · cases h
    · cases h
  · exact ⟨s.excludeDirs, rfl⟩

theorem settingText_texts (items : List String) : settingText (.texts items) = .ok (some (Text.line items)) := by
  rw [settingText.eq_def, Value.texts]
  simp only [Value.joinTexts_texts, Text.line]
  rfl

/-! ## Setting a list -/

/-- a list is set to what its text lists -/
theorem change_list {s : Settings} {k : Setting} (hk : k.IsList) (key text : String) :
    ∃ next, change s k key text = .ok next ∧ next.get k = .texts (Text.listed text) := by
  rcases hk with rfl | rfl
  · exact ⟨_, rfl, rfl⟩
  · exact ⟨_, rfl, rfl⟩

theorem edit_of_change {s next : Settings} {k : Setting} {key text : String} (hkey : settingOf key = .ok k)
    (h : change s k key text = .ok next) : edit s key text = .ok (k, next) := by
  simp [edit, hkey, h, bind, Except.bind, pure, Except.pure]

namespace State

variable [Codec]

/-- the call is refused -/
def Refuses (st : State) (c : Call) : Prop := ∃ why, (st.call c).result = .ok (some why)

/-- an accepted call is not refused, the manager has the new settings after it, and it fails only if they cannot be
written -/
theorem kept_of_saved {st : State} {c : Call} {k : Setting} {next : Settings} (h : st.saved? c = some (k, next)) :
    ¬ st.Refuses c ∧ (st.step c).held = .ok next ∧
      ∀ cause, (st.call c).result = .error cause →
        (write st.files (st.manager.file c.scope) next).1 = .error cause := by
  obtain ⟨ws, hcall⟩ := call_of_saved h
  rw [Refuses, step, hcall]
  rcases write st.files (st.manager.file c.scope) next with ⟨fault | written, left⟩
  · refine ⟨by rintro ⟨why, ⟨⟩⟩, rfl, ?_⟩
    rintro cause ⟨⟩
    rfl
  · refine ⟨by rintro ⟨why, ⟨⟩⟩, rfl, ?_⟩
    rintro cause ⟨⟩

/-- after a call that is not refused the manager has the settings that the text makes, even if the call fails -/
theorem held_of_edit {st : State} {c : Call} {s next : Settings} {k : Setting} (hs : st.held = .ok s)
    (hedit : edit s c.key c.text = .ok (k, next)) (hnot : ¬ st.Refuses c) : (st.step c).held = .ok next := by
  cases hproblem : problemAt next k with
  | ok why? =>
    cases why? with
    | none =>
      have hsaved : st.saved? c = some (k, next) := by simp only [saved?, hs, hedit, hproblem]
      exact (kept_of_saved hsaved).2.1
    | some why =>
      obtain ⟨ws, hload⟩ := load_eq_ok hs
      refine absurd ⟨why, ?_⟩ hnot
      simp [call, Manager.set, hload, hedit, commit, hproblem]
  | error cause =>
    obtain ⟨ws, hload⟩ := load_eq_ok hs
    simp only [step, call, Manager.set, hload, hedit, commit, hproblem]
    rfl

end State

/-! ## A list of the environment -/

theorem envFlag_fst (env : Environment) (key name : String) :
    (envFlag env key name).1 = [] ∨ ∃ b, (envFlag env key name).1 = [(.text key, .bool b)] := by
  unfold envFlag
  split
  · exact Or.inl rfl
  · split
    · exact Or.inr ⟨_, rfl⟩
    · exact Or.inl rfl

/-- the environment states the utilities if it lists any text for them -/
theorem stated?_envLayer (env : Environment) : stated? (envLayer env).1 .customUtilities =
    if (env.get "HCNC_CUSTOM_UTILITIES").isEmpty then none
    else some (.texts (Text.listed (env.get "HCNC_CUSTOM_UTILITIES"))) := by
  have hname : ∀ es : Entries, partOf (Entries.field?
      (if es.isEmpty then ([] : Entries) else [(.text "rules", .map es)]) "rules") = es := by
    intro es
    cases es <;> rfl
  rw [stated?, envLayer]
  simp only [Manager.Setting.part, Manager.Setting.name, hname]
  rw [envRules]
  rcases envFlag_fst env "strict_bem" "HCNC_STRICT_BEM" with hstrict | ⟨b, hstrict⟩ <;>
    rcases envFlag_fst env "allow_unknown" "HCNC_ALLOW_UNKNOWN" with hunknown | ⟨b', hunknown⟩ <;>
      simp only [hstrict, hunknown] <;> split_ifs <;> rfl

/-- without files the list of the environment is what a manager loads -/
theorem load_of_environment [Codec] {m : Manager} {files : Tree} (h : ∀ scope, files.bytes? (m.file scope) = none) :
    ∃ t, (m.fresh.load files).1 = .ok t ∧
      t.get .customUtilities = .texts (Text.listed (m.env.get "HCNC_CUSTOM_UTILITIES")) := by
  have hlayer : ∀ scope, layerAt files (m.file scope) = .ok [] := by
    intro scope
    rw [layerAt_eq, h scope]
  have hstacked : stacked m.env [] [] = (envLayer m.env).1 := by
    rw [stacked, Entries.over_nil, Entries.over_nil]
  have husable : ∀ part ∈ parts, Usable (Entries.field? (envLayer m.env).1 part) := by
    intro part hpart v hv
    simp only [envLayer] at hv
    split_ifs at hv
    · cases hv
    · simp only [Entries.field?, Entries.lookup?] at hv
      split_ifs at hv
      exact Or.inl ⟨_, (Option.some.inj hv).symm⟩
  have hread := (read_ok_iff m.env files m.userFile m.projectFile (readParts (envLayer m.env).1)).2
    ⟨[], [], hlayer .user, hlayer .project, by rw [hstacked, ofEntries_ok_iff]; exact ⟨husable, rfl⟩⟩
  refine ⟨readParts (envLayer m.env).1, by rw [fresh_load_fst]; exact hread, ?_⟩
  rw [get_readParts, stated?_envLayer]
  split_ifs with hempty
  · rw [String.isEmpty_iff.1 hempty]
    rfl
  · rfl

/-! ## There and back -/

namespace State

variable [Codec]

/-- the call is not refused, and the manager has the value for the setting after it -/
def Restores (st : State) (c : Call) (k : Setting) (v : Value) : Prop :=
  ¬ st.Refuses c ∧ ∃ t, (st.step c).held = .ok t ∧ t.get k = v

theorem shown_texts {st : State} {s : Settings} {key : String} {k : Setting} {items : List String}
    (hheld : st.held = .ok s) (hkey : settingOf key = .ok k) (hitems : s.get k = .texts items) :
    st.shown key = .ok (some (Text.line items)) := by
  rw [shown_eq, hheld, ← settingText_texts, ← hitems, ← textOf_of_settingOf hkey]
  rfl

/-- **A list survives its own text exactly if its texts are plain.** Let a manager have settings in which a list passes
its check. Then the list is shown as a text. Setting it to that text brings back the list exactly if each of its texts
is plain: not empty, without a comma, without a blank at its ends. If so, all settings are as they were, and the call
fails only if they cannot be written. For utilities the same is true of the environment: without files, a manager whose
environment states that text loads the list exactly if its texts are plain. -/
theorem lists_survive_iff (st : State) (s : Settings) (key : String) (k : Setting) (hheld : st.held = .ok s)
    (hkey : settingOf key = .ok k) (hlist : k.IsList) (hfine : problemAt s k = .ok none) :
    ∃ items text, s.get k = .texts items ∧ st.shown key = .ok (some text) ∧
      (∀ scope, st.Restores ⟨key, text, scope⟩ k (s.get k) ↔ ∀ t ∈ items, Text.Plain t) ∧
      ((∀ t ∈ items, Text.Plain t) → ∀ scope, (st.step ⟨key, text, scope⟩).held = .ok s ∧
        ∀ cause, (st.call ⟨key, text, scope⟩).result = .error cause →
          (write st.files (st.manager.file scope) s).1 = .error cause) ∧
      (k = .customUtilities → ∀ (m : Manager) (files : Tree), m.env.get "HCNC_CUSTOM_UTILITIES" = text →
        (∀ scope, files.bytes? (m.file scope) = none) →
        ∃ t, (m.fresh.load files).1 = .ok t ∧ (t.get k = s.get k ↔ ∀ t ∈ items, Text.Plain t)) := by
  obtain ⟨items, hitems⟩ := exists_texts hlist hfine
  obtain ⟨next, hchange, hnext⟩ := change_list hlist (s := s) key (Text.line items)
  have hedit := edit_of_change hkey hchange
  have hback : next.get k = s.get k ↔ ∀ t ∈ items, Text.Plain t := by
    rw [hnext, hitems, Value.texts_inj, Text.listed_line_iff]
  have hsaved (scope : Scope) (hplain : ∀ t ∈ items, Text.Plain t) :
      st.saved? ⟨key, Text.line items, scope⟩ = some (k, s) := by
    obtain rfl := (eq_of_change_iff hchange).2 (hback.2 hplain)
    simp only [saved?, hheld, hedit, hfine]
  refine ⟨items, Text.line items, hitems, shown_texts hheld hkey hitems, ?_, ?_, ?_⟩
  · intro scope
    constructor
    · rintro ⟨hnot, t, ht, hsame⟩
      have hafter := held_of_edit (c := ⟨key, Text.line items, scope⟩) hheld hedit hnot
      obtain rfl : next = t := Except.ok.inj (hafter.symm.trans ht)
      exact hback.1 hsame
    · intro hplain
      obtain ⟨hnot, hafter, -⟩ := kept_of_saved (hsaved scope hplain)
      exact ⟨hnot, s, hafter, rfl⟩
  · intro hplain scope
    exact (kept_of_saved (hsaved scope hplain)).2
  · rintro rfl m files henv hfiles
    obtain ⟨t, ht, hget⟩ := load_of_environment hfiles
    refine ⟨t, ht, ?_⟩
    rw [hget, henv, hitems, Value.texts_inj, Text.listed_line_iff]

end State

/-! ## Utilities of sample projects -/

open State

/-- a project with one utility -/
def utilityState (source : String) : State :=
  ⟨sample.fresh, bothOf "" ("rules:\n  custom_utilities: ['" ++ source ++ "']\n")⟩

/-- the call that sets the utilities -/
def utilitiesCall (text : String) : Call := ⟨"rules.custom_utilities", text, .project⟩

/-- the settings of a project with a plain utility -/
def plainSettings : { s : Settings // (utilityState "^u-[a-z]+$").held = .ok s } :=
  ⟨{ customUtilities := [.text "^u-[a-z]+$"] }, ok_of_toOption (by decide +kernel)⟩

/-- a utility without a comma is shown, set and there again -/
theorem lists_survive_plain : ∃ s, (utilityState "^u-[a-z]+$").held = .ok s ∧
    s.get .customUtilities = .texts ["^u-[a-z]+$"] ∧
    (utilityState "^u-[a-z]+$").shown "rules.custom_utilities" = .ok (some "^u-[a-z]+$") ∧
    ((utilityState "^u-[a-z]+$").step (utilitiesCall "^u-[a-z]+$")).held = .ok s := by
  have hkey : settingOf "rules.custom_utilities" = .ok .customUtilities := by rfl
  have hget : plainSettings.1.get .customUtilities = .texts ["^u-[a-z]+$"] := rfl
  have hfine : (problemAt plainSettings.1 .customUtilities).toOption = some none := by decide +kernel
  have hplain : ∀ t ∈ ["^u-[a-z]+$"], Text.Plain t := by decide +kernel
  have hline : Text.line ["^u-[a-z]+$"] = "^u-[a-z]+$" := by rfl
  have hshown := hline ▸ shown_texts plainSettings.2 hkey hget
  obtain ⟨items, text, hitems, htext, -, hkept, -⟩ := lists_survive_iff _ _ "rules.custom_utilities" .customUtilities
    plainSettings.2 hkey (Or.inl rfl) (ok_of_toOption hfine)
  obtain rfl : ["^u-[a-z]+$"] = items := Value.texts_inj.1 (hget.symm.trans hitems)
  obtain rfl : "^u-[a-z]+$" = text := Option.some.inj (Except.ok.inj (hshown.symm.trans htext))
  exact ⟨plainSettings.1, plainSettings.2, hget, hshown, (hkept hplain .project).1⟩

/-- **A utility that is cut:** its quantifier has a comma. It is shown as it is, and setting the utilities to what is
shown is accepted, but makes two of it. So does the environment. -/
theorem quantifier_cut :
    (utilityState "^u-[a-z]\x7b1,2\x7d$").held.toOption.map (·.get .customUtilities) =
      some (.texts ["^u-[a-z]\x7b1,2\x7d$"]) ∧
    ((utilityState "^u-[a-z]\x7b1,2\x7d$").held.toOption.map fun s => (problemAt s .customUtilities).toOption) =
      some (some none) ∧
    ((utilityState "^u-[a-z]\x7b1,2\x7d$").shown "rules.custom_utilities").toOption =
      some (some "^u-[a-z]\x7b1,2\x7d$") ∧
    ((utilityState "^u-[a-z]\x7b1,2\x7d$").call (utilitiesCall "^u-[a-z]\x7b1,2\x7d$")).result.toOption = some none ∧
    ((utilityState "^u-[a-z]\x7b1,2\x7d$").step (utilitiesCall "^u-[a-z]\x7b1,2\x7d$")).held.toOption.map
      (·.get .customUtilities) = some (.texts ["^u-[a-z]\x7b1", "2\x7d$"]) ∧
    ((create ⟨[("HCNC_CUSTOM_UTILITIES", "^u-[a-z]\x7b1,2\x7d$")]⟩ (.ofText "home") .here).load
      (.dir [])).1.toOption.map (·.get .customUtilities) = some (.texts ["^u-[a-z]\x7b1", "2\x7d$"]) := by
  decide +kernel

end Manager

end ClassNaming
