/-
What a refused change leaves behind.

A change is refused before anything is changed, or it is made in the settings that are held and dropped again, by
forgetting all of them. The next reading then takes them from the files, where the entries of a mapping may stand in
another order. The members of a set have no order of their own, either.

- `settingText_same`: a value that is the same is shown the same, a mapping or a set apart.
- `refused_step`: a refused change leaves the files as they are, and the settings that were held or those of a new
  manager.
- `refused_changes_nothing`: so a manager that agrees with a new one has the same settings as before, and shows them
  alike.
- `dropped_reorders`: a mapping that is shown in another order afterwards.
-/
import ClassNaming.Proofs.Settings.Coherence
import ClassNaming.Proofs.Value.Texts

namespace ClassNaming

open Value (Alike Same)

/-! ## Texts of settings -/

namespace Value

theorem Same.typeName_eq {v w : Value} (h : Same v w) : v.typeName = w.typeName := by
  have hshape := h.shape_eq
  cases v <;> cases w <;> simp_all [shape, typeName]
  rename_i s t
  rw [← s.typeName_bare, hshape, t.typeName_bare]

theorem Same.textAt_eq {v w : Value} (h : Same v w) (i : Nat) : v.textAt i = w.textAt i := by
  by_cases hw : ∃ s, w = .text s
  · obtain ⟨s, rfl⟩ := hw
    rw [h.eq_scalar trivial]
  · have hv : ¬ ∃ s, v = .text s := by
      rintro ⟨s, rfl⟩
      exact hw ⟨s, h.symm.eq_scalar trivial⟩
    rw [textAt_of_notText (not_exists.1 hv), textAt_of_notText (not_exists.1 hw), h.typeName_eq]

theorem textsFrom_alike {vs ws : List Value} (h : ∀ i : Nat, Alike vs[i]? ws[i]?) (start : Nat) :
    textsFrom start vs = textsFrom start ws := by
  induction ws generalizing vs start with
  | nil =>
    obtain rfl : vs = [] := by
      have hnone : vs[0]? = none := (h 0).eq_none
      simpa using hnone
    rfl
  | cons w ws ih =>
    obtain ⟨v, hv, hsame⟩ := (show Alike vs[0]? (some w) from h 0).exists_some
    cases vs with
    | nil => cases hv
    | cons first vs =>
      obtain rfl : first = v := by simpa using hv
      have hrest : ∀ i : Nat, Alike vs[i]? ws[i]? := fun i => by simpa using h (i + 1)
      simp only [textsFrom, hsame.textAt_eq, ih hrest]

/-- what the value is compared by settles how it is shown: it is no mapping, whose entries are shown in their order, and
no set -/
def Settled : Value → Prop
  | .scalar s => s.Settled
  | .map _ => False
  | _ => True

end Value

namespace Manager

open Settings

/-- **What is the same is shown the same**, a mapping or a set apart. -/
theorem settingText_same {v w : Value} (h : v.Same w) (hw : w.Settled) : settingText v = settingText w := by
  cases w with
  | scalar s => rw [h.eq_scalar hw]
  | list items =>
    obtain ⟨others, rfl, hitems⟩ := h.eq_list
    simp only [settingText, Value.joinTexts, Value.textsFrom_alike hitems]
  | map es => exact absurd hw id
  | record name shown es =>
    have hshape := h.shape_eq
    cases v with
    | record other text fs =>
      obtain ⟨rfl, rfl⟩ : other = name ∧ text = shown := by simpa [Value.shape] using hshape
      rfl
    | scalar s => simp [Value.shape] at hshape
    | list items => simp [Value.shape] at hshape
    | map es => simp [Value.shape] at hshape

/-- the text of a key is that of the setting it names -/
theorem textOf_of_settingOf {key : String} {k : Setting} (h : settingOf key = .ok k) (s : Settings) :
    textOf s key = settingText (s.get k) := by
  unfold textOf
  rw [h]
  cases k <;> rfl

theorem textOf_of_unknown {key why : String} (h : settingOf key = .error why) (s : Settings) :
    textOf s key = .ok none := by
  unfold textOf
  rw [h]

theorem textOf_same {s t : Settings} (h : ∀ k, (t.get k).Same (s.get k)) {key : String}
    (hkey : ∀ k, settingOf key = .ok k → (s.get k).Settled) : textOf t key = textOf s key := by
  cases hk : settingOf key with
  | error why => rw [textOf_of_unknown hk, textOf_of_unknown hk]
  | ok k => rw [textOf_of_settingOf hk, textOf_of_settingOf hk, settingText_same (h k) (hkey k hk)]

/-! ## Refused changes -/

namespace State

variable [Codec] {st : State} {c : Call}

/-- what the manager shows for a key -/
def shown (st : State) (key : String) : Except Fault (Option String) := (st.manager.get st.files key).1

/-- the key names a setting whose value is a mapping or a set; this can be one of the display settings only -/
def Unsettled (st : State) (key : String) : Prop :=
  ∃ s k, st.held = .ok s ∧ settingOf key = .ok k ∧ ¬ (s.get k).Settled

theorem shown_eq (st : State) (key : String) : st.shown key = st.held >>= fun s => textOf s key := by
  unfold shown held Manager.get
  split <;> rename_i hload <;> rw [hload] <;> rfl

/-- only a manager that has settings refuses a change -/
theorem exists_held {result : Option String} (h : (st.call c).result = .ok result) : ∃ s, st.held = .ok s := by
  unfold call Manager.set at h
  unfold held
  split at h
  · cases h
  · rename_i s ws m hload
    exact ⟨s, by rw [hload]⟩

/-- a refused change leaves the files, and the settings that were held or those that a new manager gets -/
theorem refused_step {why : String} (h : (st.call c).result = .ok (some why)) :
    (st.step c).files = st.files ∧ ((st.step c).held = st.held ∨ (st.step c).held = st.current) := by
  obtain ⟨s, hs⟩ := exists_held h
  have hret : fault? (st.call c).result = none := by
    rw [h]
    rfl
  have houtcome := set_outcome hs hret
  unfold step
  unfold call at h ⊢
  generalize st.manager.set st.files c.key c.text c.scope = change at h houtcome ⊢
  cases houtcome with
  | refused edited => exact ⟨rfl, .inl hs.symm⟩
  | dropped edited problem => exact ⟨rfl, .inr rfl⟩
  | saved edited problem wrote => cases h

/-- **A refused change changes nothing.** Let a manager have the settings that a new one would get, and let it refuse a
change. Then the files are as before, the manager has the same settings, and each key is shown with the same text,
unless the value is a mapping or a set, whose entries can be shown in another order. Where the manager had exactly the
settings that a new one would get, there is no such exception. -/
theorem refused_changes_nothing (st : State) (c : Call) (why : String) (hco : st.Coherent)
    (hrefused : (st.call c).result = .ok (some why)) :
    (st.step c).files = st.files ∧
    (∃ s t, st.held = .ok s ∧ (st.step c).held = .ok t ∧ ∀ k, (t.get k).Same (s.get k)) ∧
    (∀ key, ¬ st.Unsettled key → (st.step c).shown key = st.shown key) ∧
    (st.held = st.current → (st.step c).held = st.held ∧ ∀ key, (st.step c).shown key = st.shown key) := by
  obtain ⟨hfiles, hheld⟩ := refused_step hrefused
  obtain ⟨s, t, hs, ht, hsame⟩ := hco
  have hsettings : ∃ after, (st.step c).held = .ok after ∧ ∀ k, (after.get k).Same (s.get k) := by
    rcases hheld with hheld | hheld
    · exact ⟨s, hheld.trans hs, fun k => Same.refl _⟩
    · exact ⟨t, hheld.trans ht, fun k => (hsame k).symm⟩
  obtain ⟨after, hafter, hlike⟩ := hsettings
  refine ⟨hfiles, ⟨s, after, hs, hafter, hlike⟩, fun key hkey => ?_, fun hexact => ?_⟩
  · have htext : textOf after key = textOf s key := textOf_same hlike fun k hk => by
      by_contra hloose
      exact hkey ⟨s, k, hs, hk, hloose⟩
    calc (st.step c).shown key = textOf after key := by rw [shown_eq, hafter]; rfl
      _ = textOf s key := htext
      _ = st.shown key := by rw [shown_eq, hs]; rfl
  · have hback : (st.step c).held = st.held := hheld.elim id fun h => h.trans hexact.symm
    exact ⟨hback, fun key => by rw [shown_eq, shown_eq, hback]⟩

end State

/-! ## Refused changes in sample projects -/

open State

/-- a format that is none, refused in a project that is as it was loaded -/
theorem refused_changes_nothing_table : distState.Coherent ∧
    (distState.call tableCall).result.toOption =
      some (some "Unknown format 'table'. Valid: auto, list, summary, json") ∧
    ∀ key, (distState.step tableCall).shown key = distState.shown key := by
  have hco : distState.Coherent := ⟨_, _, load_dist, load_dist, fun _ => Same.refl _⟩
  have hrefused : (distState.call tableCall).result.toOption =
      some (some "Unknown format 'table'. Valid: auto, list, summary, json") := by
    decide +kernel
  exact ⟨hco, hrefused,
    ((refused_changes_nothing distState tableCall _ hco (ok_of_toOption hrefused)).2.2.2 rfl).2⟩

/-- a mapping for symbols, as it is read and as it is written -/
def readPair : Value := .object [("b", .int 1), ("a", .int 2)]

def writtenPair : Value := .object [("a", .int 2), ("b", .int 1)]

/-- a manager that has read the mapping from a file in which it has been put in order since -/
def sortedState : State :=
  ⟨sample.holding { symbols := readPair }, bothOf "" "display:\n  symbols:\n    a: 2\n    b: 1\n"⟩

def listCall : Call := ⟨"display.format", "list", .project⟩

/-- what a new manager gets there -/
def sortedSettings : { s : Settings // sortedState.current = .ok s } :=
  ⟨{ symbols := writtenPair }, ok_of_toOption (by decide +kernel)⟩

/-- the order of the entries is no part of a value -/
theorem coherent_sorted : sortedState.Coherent := by
  have hkeyed : readPair.Keyed := Value.keyed_object (by decide) (by simpa using ⟨.scalar _, .scalar _⟩)
  have hpair : readPair.Same writtenPair := (Yaml.sorted_same hkeyed).symm
  refine ⟨_, _, rfl, sortedSettings.2, fun k => ?_⟩
  cases k with
  | symbols => exact hpair
  | strictBem | allowUnknown | customUtilities | format | excludeDirs => exact Same.refl _

/-- **A refused change that a key is shown differently after:** the symbols are a mapping, so every change of the
display settings is dropped. Before it the manager shows the entries as it has read them, after it as they stand in the
file. -/
theorem dropped_reorders :
    sortedState.Coherent ∧
    (sortedState.call listCall).result.toOption =
      some (some "Unknown symbols setting '\x7b'b': 1, 'a': 2\x7d'. Valid: unicode, ascii, auto") ∧
    (sortedState.shown "display.symbols").toOption = some (some "\x7b'b': 1, 'a': 2\x7d") ∧
    ((sortedState.step listCall).shown "display.symbols").toOption = some (some "\x7b'a': 2, 'b': 1\x7d") :=
  ⟨coherent_sorted, by decide +kernel⟩

end Manager

end ClassNaming
