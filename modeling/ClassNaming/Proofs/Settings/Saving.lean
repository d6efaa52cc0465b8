/-
What setting one value does to the files.

A change is refused because the key or the text is none, dropped because the section's check finds a problem, or saved.
Saving writes a document of all settings in effect, not of the one that is changed.

- `set_outcome`: one of the three is the case whenever a change comes to an end.
- `bytes?_write`: saving changes the file of its scope and no other.
- `layerAt_document`: a document that is read back states every setting.
- `set_stores`: after an accepted change the other scope's file is as before, and the file of the scope stores each
  setting with the value in effect, so that a setting that is not named keeps what was stored exactly if that was in
  effect.
- `set_copies`: a value of the environment that is copied into the file.
-/
import ClassNaming.Proofs.Settings.Inheritance
import ClassNaming.Proofs.Text.Bytes

namespace ClassNaming

/-- the other of the two scopes -/
def Scope.other : Scope → Scope
  | .project => .user
  | .user => .project

namespace Settings

open Manager (Setting)
open Value (Alike Same)

/-! ## Documents -/

/-- the written mapping states every setting -/
theorem exists_value_eq (s : Settings) : ∃ es, s.value = .map es ∧ ∀ k, stated? es k = some (s.get k) :=
  ⟨_, rfl, fun k => by cases k <;> rfl⟩

theorem keyed_value {s : Settings} (h : ∀ k, (s.get k).Keyed) : s.value.Keyed := by
  refine Value.keyed_object (by simp) ?_
  simp only [List.forall_mem_cons, List.not_mem_nil, false_imp_iff, implies_true, and_true]
  refine ⟨Value.keyed_object (by simp) ?_, Value.keyed_object (by simp) ?_, Value.keyed_object (by simp) ?_⟩ <;>
    simp only [List.forall_mem_cons, List.not_mem_nil, false_imp_iff, implies_true, and_true]
  · exact ⟨h .strictBem, h .allowUnknown, h .customUtilities⟩
  · exact ⟨h .symbols, h .format⟩
  · exact h .excludeDirs

theorem alike_partOf {a b : Option Value} (h : Alike a b) (key : Scalar) :
    Alike (Entries.lookup? (partOf a) key) (Entries.lookup? (partOf b) key) := by
  cases b with
  | none => rw [h.eq_none]; exact Alike.refl _
  | some v =>
    obtain ⟨u, rfl, hsame⟩ := h.exists_some
    by_cases hv : v.IsMap
    · obtain ⟨us, rfl⟩ := hsame.isMap_iff.2 hv
      obtain ⟨vs, rfl⟩ := hv
      exact hsame.lookup? key
    · have hu : ¬ u.IsMap := fun hu => hv (hsame.isMap_iff.1 hu)
      rw [partOf_of_not_isMap hu, partOf_of_not_isMap hv]
      exact Alike.refl _

theorem stated?_alike {es fs : Entries} (h : Same (.map es) (.map fs)) (k : Setting) :
    Alike (stated? es k) (stated? fs k) :=
  alike_partOf (h.lookup? _) _

theorem stance_of_stated? {layer : Entries} {k : Setting} {v : Value} (h : stated? layer k = some v) :
    stance layer k = .states v := by
  rw [stated?_eq_over] at h
  cases hs : stance layer k with
  | silent => simp [hs, Stance.over] at h
  | blanks => simp [hs, Stance.over] at h
  | states w =>
    obtain rfl : w = v := by simpa [hs, Stance.over] using h
    rfl

/-- a document that can be read back states every setting with its value -/
theorem layerAt_document [Codec] [LawfulCodec] {files : Tree} {p : Path} {s : Settings} (hkept : Codec.Kept s.value)
    (h : files.bytes? p = some s.document) :
    ∃ es, layerAt files p = .ok es ∧ ∀ k, ∃ v, stance es k = .states v ∧ v.Same (s.get k) := by
  obtain ⟨w, hread, hsame⟩ := hkept
  obtain ⟨fs, hfs, hstated⟩ := s.exists_value_eq
  rw [hfs] at hsame
  obtain ⟨es, rfl⟩ := hsame.isMap
  refine ⟨es, ?_, fun k => ?_⟩
  · have horElse : (Value.map es).orElse (.map []) = .map es := by
      cases es <;> rfl
    simp only [layerAt_eq, h, bytesEntries, document, Utf8.decode_encode,
      Text.unifyLineEnds_of_notMem (LawfulCodec.noReturn s.value), textEntries, hread, horElse]
  · have halike := stated?_alike hsame k
    rw [hstated k] at halike
    obtain ⟨v, hv, hsame⟩ := halike.exists_some
    exact ⟨v, stance_of_stated? hv, hsame⟩

end Settings

namespace Manager

open Settings

/-- the two files are different ones, at plain paths: both are read from the root of the tree, and neither leads up -/
structure Apart (m : Manager) : Prop where
  user : m.userFile.IsPlain
  project : m.projectFile.IsPlain
  different : m.userFile ≠ m.projectFile

theorem Apart.plain {m : Manager} (h : m.Apart) (scope : Scope) : (m.file scope).IsPlain := by
  cases scope with
  | project => exact h.project
  | user => exact h.user

/-- the manager with these settings loaded -/
def holding (m : Manager) (s : Settings) : Manager := { m with loaded := some s }

/-! ## Writing -/

theorem write_eq_ok [Codec] {files written left : Tree} {p : Path} {s : Settings}
    (h : write files p s = (.ok written, left)) :
    left = written ∧ ∃ made, files.makeDirs p.parent = .ok made ∧ made.writeBytes p s.document = .ok written := by
  unfold write at h
  split at h
  · cases h
  · rename_i made hmade
    split at h
    · cases h
    · rename_i out hout
      cases h
      exact ⟨rfl, made, hmade, hout⟩

theorem parent_isPlain {p : Path} (hp : p.IsPlain) : p.parent.IsPlain :=
  ⟨hp.relative, fun hup => hp.noUp (List.dropLast_subset _ hup)⟩

/-- writing changes the file at the path and no other -/
theorem bytes?_write [Codec] {files written left : Tree} {p other : Path} {s : Settings} (hp : p.IsPlain)
    (ho : other.IsPlain) (h : write files p s = (.ok written, left)) :
    written.bytes? other = if other.parts = p.parts then some s.document else files.bytes? other := by
  obtain ⟨-, made, hmade, hwritten⟩ := write_eq_ok h
  rw [Tree.bytes?_eq_fileAt ho, Tree.bytes?_eq_fileAt ho, Tree.fileAt_writeBytes hp hwritten,
    Tree.fileAt_makeDirs (parent_isPlain hp) hmade]

theorem parts_other_ne {m : Manager} (h : m.Apart) (scope : Scope) :
    (m.file scope.other).parts ≠ (m.file scope).parts := by
  have hne : m.userFile.parts ≠ m.projectFile.parts := by
    intro hparts
    apply h.different
    calc m.userFile = ⟨m.userFile.anchor, m.userFile.parts⟩ := rfl
      _ = ⟨m.projectFile.anchor, m.projectFile.parts⟩ := by rw [h.user.relative, h.project.relative, hparts]
  cases scope with
  | project => exact hne
  | user => exact hne.symm

/-! ## Changing -/

/-- how a change can come to an end, `s` being the settings in effect before it -/
inductive Outcome [Codec] (m : Manager) (files : Tree) (key text : String) (scope : Scope) (s : Settings) :
    Change → Prop
  | refused {why : String} {ws : List LogEntry} (edited : edit s key text = .error why) :
      Outcome m files key text scope s ⟨.ok (some why), ws, m.holding s, files⟩
  | dropped {k : Setting} {next : Settings} {why : String} {ws : List LogEntry}
      (edited : edit s key text = .ok (k, next)) (problem : problemAt next k = .ok (some why)) :
      Outcome m files key text scope s ⟨.ok (some why), ws, m.fresh, files⟩
  | saved {k : Setting} {next : Settings} {ws : List LogEntry} {written left : Tree}
      (edited : edit s key text = .ok (k, next)) (problem : problemAt next k = .ok none)
      (wrote : write files (m.file scope) next = (.ok written, left)) :
      Outcome m files key text scope s ⟨.ok none, ws, m.holding next, written⟩

theorem load_eq_ok [Codec] {m : Manager} {files : Tree} {s : Settings} (h : (m.load files).1 = .ok s) :
    ∃ ws, m.load files = (.ok s, ws, m.holding s) := by
  unfold load at h ⊢
  split at h
  · rename_i held hheld
    cases h
    refine ⟨[], ?_⟩
    simp [holding, ← hheld]
  · split at h
    · cases h
      exact ⟨_, rfl⟩
    · cases h

/-- a change that comes to an end is refused, dropped or saved -/
theorem set_outcome [Codec] {m : Manager} {files : Tree} {key text : String} {scope : Scope} {s : Settings}
    (hload : (m.load files).1 = .ok s) (hset : fault? (m.set files key text scope).result = none) :
    Outcome m files key text scope s (m.set files key text scope) := by
  obtain ⟨ws, hload⟩ := load_eq_ok hload
  unfold set at hset ⊢
  simp only [hload] at hset ⊢
  cases hedit : edit s key text with
  | error why => exact .refused hedit
  | ok pair =>
    obtain ⟨k, next⟩ := pair
    simp only [hedit] at hset ⊢
    unfold commit at hset ⊢
    dsimp only at hset ⊢
    cases hproblem : problemAt next k with
    | error cause => simp [hproblem, fault?] at hset
    | ok why? =>
      cases why? with
      | some why => exact .dropped hedit hproblem
      | none =>
        have hfile : ({ m.holding s with loaded := some next } : Manager).file scope = m.file scope := by
          cases scope <;> rfl
        simp only [hproblem, save, hfile] at hset ⊢
        cases hwrite : write files (m.file scope) next with
        | mk out left =>
          simp only [hwrite] at hset ⊢
          cases out with
          | error cause => cases hset
          | ok written => exact .saved hedit hproblem hwrite

theorem edit_eq_ok {s next : Settings} {key text : String} {k : Setting} (h : edit s key text = .ok (k, next)) :
    settingOf key = .ok k ∧ change s k key text = .ok next := by
  unfold edit at h
  obtain ⟨k', hk, h⟩ := bind_eq_ok h
  obtain ⟨s', hs, h⟩ := bind_eq_ok h
  cases h
  exact ⟨hk, hs⟩

/-- a change leaves the other settings as they are -/
theorem get_change {s next : Settings} {key text : String} {k : Setting} (h : change s k key text = .ok next)
    {j : Setting} (hj : j ≠ k) : next.get j = s.get j := by
  cases k <;> simp only [change] at h
  case strictBem | allowUnknown =>
    cases hflag : flagText key text with
    | error why => simp [hflag, Except.map] at h
    | ok b =>
      simp only [hflag, Except.map] at h
      cases h
      cases j <;> first | rfl | exact absurd rfl hj
  all_goals
    cases h
    cases j <;> first | rfl | exact absurd rfl hj

/-- the value that the file at a path stores for a setting -/
def stored? [Codec] (files : Tree) (p : Path) (k : Setting) : Option Value := stated? (entriesAt files p) k

/-- **What setting one value does to the files.** Let a change be accepted, `s` being the settings in effect before it.
Then the key names a setting, the text gives it a value, and no other setting in effect changes. The file of the other
scope is as before, and the file of the scope holds the document of all settings. If that document can be read back,
each setting is stored with its value in effect, and a setting other than the one that is set keeps what was stored for
it exactly if that was the value in effect. -/
theorem set_stores [Codec] [LawfulCodec] (m : Manager) (files : Tree) (key text : String) (scope : Scope)
    (s : Settings) (h : m.Apart) (hload : (m.load files).1 = .ok s)
    (hset : (m.set files key text scope).result = .ok none) :
    ∃ k next, settingOf key = .ok k ∧ change s k key text = .ok next ∧ (∀ j ≠ k, next.get j = s.get j) ∧
      (m.set files key text scope).files.bytes? (m.file scope.other) = files.bytes? (m.file scope.other) ∧
      (m.set files key text scope).files.bytes? (m.file scope) = some next.document ∧
      (Codec.Kept next.value →
        (∀ j, Value.Alike (stored? (m.set files key text scope).files (m.file scope) j) (some (next.get j))) ∧
        ∀ j ≠ k, Value.Alike (stored? (m.set files key text scope).files (m.file scope) j)
            (stored? files (m.file scope) j) ↔
          Value.Alike (stored? files (m.file scope) j) (some (s.get j))) := by
  have hret : fault? (m.set files key text scope).result = none := by rw [hset]; rfl
  have houtcome := set_outcome hload hret
  generalize m.set files key text scope = c at hset houtcome ⊢
  cases houtcome with
  | refused edited => cases hset
  | dropped edited problem => cases hset
  | @saved k next ws written left edited problem wrote =>
    obtain ⟨hkey, hchange⟩ := edit_eq_ok edited
    have hother := bytes?_write (h.plain scope) (h.plain scope.other) wrote
    have hown := bytes?_write (h.plain scope) (h.plain scope) wrote
    rw [if_neg (parts_other_ne h scope)] at hother
    rw [if_pos rfl] at hown
    refine ⟨k, next, hkey, hchange, fun j hj => get_change hchange hj, hother, hown, fun hkept => ?_⟩
    have hstored : ∀ j, Value.Alike (stored? written (m.file scope) j) (some (next.get j)) := by
      intro j
      obtain ⟨es, hes, hstates⟩ := layerAt_document hkept hown
      obtain ⟨v, hv, hsame⟩ := hstates j
      rw [stored?, entriesAt_of_layerAt hes, stated?_eq_over, hv, Stance.over, Value.over_none]
      exact hsame
    refine ⟨hstored, fun j hj => ?_⟩
    have hj' := hstored j
    rw [get_change hchange hj] at hj'
    exact ⟨fun hsame => hsame.symm.trans hj', fun hsame => hj'.trans hsame.symm⟩

/-! ## A change in a sample project -/

/-- a project file that excludes a directory, and an empty user file -/
def distFiles : Tree := bothOf "" "scan:\n  exclude_dirs: dist\n"

/-- the settings there, with strict rules of the environment -/
def distSettings : Settings := { strictBem := true, excludeDirs := ["dist"] }

theorem load_dist : (strictSample.load distFiles).1 = .ok distSettings := ok_of_toOption (by decide +kernel)

/-- the settings after a change of the symbols -/
def asciiSettings : Settings := { strictBem := true, symbols := .text "ascii", excludeDirs := ["dist"] }

theorem kept_ascii : Codec.Kept asciiSettings.value := by
  refine Yaml.kept_of_read (keyed_value fun k => ?_) (by decide +kernel)
  cases k with
  | customUtilities => exact .list nofun
  | excludeDirs => exact Value.keyed_texts _
  | strictBem | allowUnknown | symbols | format => exact .scalar _

theorem apart_create (env : Environment) : (create env (.ofText "home") .here).Apart := by
  have huser : fileBelow (.ofText "home") = ⟨"", ["home", ".hcnc", "config.yaml"]⟩ := by decide +kernel
  have hproject : fileBelow .here = ⟨"", [".hcnc", "config.yaml"]⟩ := by decide
  refine ⟨⟨congrArg Path.anchor huser, ?_⟩, ⟨congrArg Path.anchor hproject, ?_⟩, ?_⟩
  · simp [create, huser]
  · simp [create, hproject]
  · simp [create, huser, hproject]

/-- the user's file gets the symbols, and with them the strict rules of the environment and the directory of the
project's file -/
theorem set_stores_ascii :
    (strictSample.set distFiles "display.symbols" "ascii" .user).files.bytes? strictSample.projectFile =
        distFiles.bytes? strictSample.projectFile ∧
      ∀ j, Value.Alike (stored? (strictSample.set distFiles "display.symbols" "ascii" .user).files
        strictSample.userFile j) (some (asciiSettings.get j)) := by
  have hset : (strictSample.set distFiles "display.symbols" "ascii" .user).result.toOption = some none := by
    decide +kernel
  obtain ⟨k, next, hkey, hchange, -, hother, -, hkept⟩ :=
    set_stores strictSample distFiles "display.symbols" "ascii" .user _ (apart_create _) load_dist
      (ok_of_toOption hset)
  obtain rfl : k = .symbols := by
    have hsymbols : settingOf "display.symbols" = .ok .symbols := by rfl
    rw [hsymbols] at hkey
    cases hkey
    rfl
  obtain rfl : next = asciiSettings := by
    cases hchange
    rfl
  exact ⟨hother, (hkept kept_ascii).1⟩

/-- **A change that copies values of other layers:** the user's file stores nothing, and after the symbols are set
there it stores the strict rules of the environment and the directory of the project's file. -/
theorem set_copies :
    (strictSample.set distFiles "display.symbols" "ascii" .user).result.toOption = some none ∧
    stored? distFiles strictSample.userFile .strictBem = none ∧
    stored? distFiles strictSample.userFile .excludeDirs = none ∧
    stored? (strictSample.set distFiles "display.symbols" "ascii" .user).files strictSample.userFile .strictBem =
      some (.bool true) ∧
    stored? (strictSample.set distFiles "display.symbols" "ascii" .user).files strictSample.userFile .excludeDirs =
      some (.texts ["dist"]) := by
  decide +kernel

end Manager

end ClassNaming
