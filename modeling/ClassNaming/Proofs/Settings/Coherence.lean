/-
Whether a manager that keeps its settings agrees with one that reads them anew.

A run is a list of calls that each set one value. It is coherent if after each call the settings that the manager keeps
are those that a new manager for the same project would load.

- `coherent_step_iff`: from a coherent state, a call leads to a coherent one exactly if it does not put a value into
  the user's file that the project's file hides.
- `coherent_iff`: so a run is coherent exactly if no call of it does that.
- `hidden_incoherent`: a call that does.
-/
import ClassNaming.Proofs.Settings.Saving

namespace ClassNaming

open Value (Alike Same)

namespace Settings

open Manager (Setting)

/-! ## Values that are written and read back -/

/-- a value that looks like that of a setting has it as its normal form -/
theorem normal_of_same {s : Settings} {k : Setting} {v : Value} (h : v.Same (s.get k)) :
    (normal k (some v)).Same (s.get k) := by
  cases k with
  | strictBem =>
    rw [show v = .bool s.strictBem from h.eq_scalar trivial]
    exact Same.refl _
  | allowUnknown =>
    rw [show v = .bool s.allowUnknown from h.eq_scalar trivial]
    exact Same.refl _
  | customUtilities =>
    obtain ⟨items, rfl, -⟩ := Same.eq_list h
    exact h
  | symbols | format =>
    rw [normal_display rfl]
    exact h
  | excludeDirs =>
    rw [show v = .texts s.excludeDirs from Same.eq_texts h]
    have hshown : (s.excludeDirs.map Value.text).map Value.shown = s.excludeDirs := by
      simp [Function.comp_def, Value.shown, Scalar.shown]
    have hnormal : normal .excludeDirs (some (.texts s.excludeDirs)) =
        .texts ((s.excludeDirs.map Value.text).map Value.shown) := rfl
    rw [hnormal, hshown]
    exact Same.refl _

theorem stance_keyed {layer : Entries} (hl : Value.Keyed (.map layer)) {k : Setting} {u : Value}
    (h : stance layer k = .states u) : u.Keyed := by
  unfold stance at h
  split at h
  · cases h
  · rename_i es hes
    split at h
    · cases h
    · rename_i v hv
      cases h
      exact (hl.lookup? hes).lookup? hv
  · cases h

/-- a value in effect, written to the highest layer, is not changed by the layers below -/
theorem normal_over_below {s : Settings} {k : Setting} {σ : Stance} (hσ : ∀ u, σ = .states u → u.Keyed)
    {below : Option Value} (hs : (s.get k).Same (normal k (σ.over below))) {v : Value} (hv : v.Keyed)
    (hsame : v.Same (s.get k)) : (normal k (some (Value.over below v))).Same (s.get k) := by
  by_cases hk : k.part = "display"
  swap
  · rw [(normal_over_iff k below v).2 fun h => absurd h hk]
    exact normal_of_same hsame
  rw [normal_display hk, Option.getD_some]
  rw [normal_display hk] at hs
  cases σ with
  | silent =>
    cases below with
    | none =>
      rw [Value.over_none]
      exact hsame
    | some x =>
      have hnone : ∀ u ∈ (none : Option Value), u.Keyed := by simp
      exact (Value.laid_absorbs hv hnone (hsame.trans hs)).trans hsame
  | blanks =>
    have hauto : v = .text "auto" := (hsame.trans hs).eq_scalar trivial
    rw [hauto, Value.over_of_not_isMap (by simp [Value.IsMap])]
    exact hauto ▸ hsame
  | states u =>
    have hsome : ∀ w ∈ some u, w.Keyed := by simpa using hσ u rfl
    exact (Value.laid_absorbs hv hsome (hsame.trans hs)).trans hsame

/-- a value in effect, written below the highest layer, is not changed by having that layer laid over it -/
theorem normal_over_written {s : Settings} {k : Setting} {σ : Stance} (hσ : ∀ u, σ = .states u → u.Keyed)
    {below lowest : Option Value} (hlowest : k.part = "display" → lowest = none)
    (hs : (s.get k).Same (normal k (σ.over below))) {v : Value} (hsame : v.Same (s.get k)) :
    (normal k (σ.over (some (Value.over lowest v)))).Same (s.get k) := by
  cases σ with
  | silent =>
    rw [Stance.over, (normal_over_iff k lowest v).2 fun hk => by rw [hlowest hk, Value.over_none]]
    exact normal_of_same hsame
  | blanks => exact hs.symm
  | states u =>
    rw [Stance.over] at hs ⊢
    by_cases hk : k.part = "display"
    · rw [normal_display hk, Option.getD_some] at hs ⊢
      rw [hlowest hk, Value.over_none]
      exact (Value.laid_absorbed (hσ u rfl).nested (hsame.trans hs)).trans hsame
    · rw [(normal_over_iff k _ u).2 fun h => absurd h hk] at hs ⊢
      exact hs.symm

theorem laidBy_envLayer (env : Environment) {k : Setting} (hk : k.part = "display") :
    laidBy k [(envLayer env).1] = none := by
  have hfield : Entries.field? (envLayer env).1 k.part = none := by
    rw [hk, envLayer]
    dsimp only
    split_ifs
    · rfl
    · simp [Entries.field?, Entries.lookup?, Scalar.sameKey, Scalar.keyForm]
  simp [laidBy, stance, hfield, Stance.over]

end Settings

namespace Manager

open Settings

/-! ## Runs -/

/-- a manager and the files it works on -/
structure State where
  manager : Manager
  files : Tree

/-- a call that sets one value -/
structure Call where
  key : String
  text : String
  scope : Scope

namespace State

variable [Codec]

/-- the settings that the manager has -/
def held (st : State) : Except Fault Settings := (st.manager.load st.files).1

/-- the settings that a new manager for the same project gets -/
def current (st : State) : Except Fault Settings := (st.manager.fresh.load st.files).1

/-- both have settings, and the same ones -/
def Coherent (st : State) : Prop :=
  ∃ s t, st.held = .ok s ∧ st.current = .ok t ∧ ∀ k, (s.get k).Same (t.get k)

def call (st : State) (c : Call) : Change := st.manager.set st.files c.key c.text c.scope

/-- the state after a call -/
def step (st : State) (c : Call) : State := ⟨(st.call c).manager, (st.call c).files⟩

/-- what holds of every call of a run in the state in which it is made -/
def Along (P : State → Call → Prop) : State → List Call → Prop
  | _, [] => True
  | st, c :: calls => P st c ∧ Along P (st.step c) calls

/-- the call comes to an end -/
def Returns (st : State) (c : Call) : Prop := fault? (st.call c).result = none

/-- the setting that a call sets and the settings that it saves, if it is accepted -/
def saved? (st : State) (c : Call) : Option (Setting × Settings) :=
  match st.held with
  | .error _ => none
  | .ok s =>
    match edit s c.key c.text with
    | .error _ => none
    | .ok (k, next) =>
      match problemAt next k with
      | .ok none => some (k, next)
      | _ => none

/-- what the call saves can be read back -/
def Keeps (st : State) (c : Call) : Prop := ∀ saved ∈ st.saved? c, Codec.Kept saved.2.value

/-- what the call saves to the user's file is not hidden: with what the project's file has to say about the setting
laid over it, the new value is still the value of the setting -/
def Unhidden (st : State) (c : Call) : Prop :=
  c.scope = .user → ∀ saved ∈ st.saved? c,
    (normal saved.1 ((stance (entriesAt st.files st.manager.projectFile) saved.1).over
      (some (saved.2.get saved.1)))).Same (saved.2.get saved.1)

end State

/-! ## Reading after a change -/

section

variable [Codec]

theorem layerAt_congr {files others : Tree} {p : Path} (h : others.bytes? p = files.bytes? p) :
    layerAt others p = layerAt files p := by
  rw [layerAt_eq, layerAt_eq, h]

theorem entriesAt_congr {files others : Tree} {p : Path} (h : others.bytes? p = files.bytes? p) :
    entriesAt others p = entriesAt files p := by
  rw [entriesAt, entriesAt, layerAt_congr h]

theorem readable_congr {files others : Tree} {p : Path} (h : others.bytes? p = files.bytes? p) :
    Readable others p ↔ Readable files p := by
  rw [← layerAt_ok_iff, ← layerAt_ok_iff, layerAt_congr h]

/-- the layers with another one in place of the file of a scope -/
def layersWith (m : Manager) (files : Tree) (es : Entries) : Scope → List Entries
  | .project => [es, entriesAt files m.userFile, (envLayer m.env).1]
  | .user => [entriesAt files m.projectFile, es, (envLayer m.env).1]

end

theorem usable_map (es : Entries) : Usable (some (.map es)) := by
  rintro v ⟨⟩
  exact Or.inl ⟨es, rfl⟩

theorem section_of_states {layer : Entries} {k : Setting} {v : Value} (h : stance layer k = .states v) :
    ∃ es, Entries.field? layer k.part = some (.map es) := by
  unfold stance at h
  split at h
  · cases h
  · exact ⟨_, ‹_›⟩
  · cases h

/-- a layer that states every setting has every section -/
theorem exists_section {layer : Entries} (h : ∀ k, ∃ v, stance layer k = .states v) {part : String}
    (hpart : part ∈ parts) : ∃ es, Entries.field? layer part = some (.map es) := by
  have hsome : ∃ k : Setting, k.part = part := by
    simp only [parts, List.mem_cons, List.not_mem_nil, or_false] at hpart
    rcases hpart with rfl | rfl | rfl
    · exact ⟨.strictBem, rfl⟩
    · exact ⟨.symbols, rfl⟩
    · exact ⟨.excludeDirs, rfl⟩
  obtain ⟨k, rfl⟩ := hsome
  obtain ⟨v, hv⟩ := h k
  exact section_of_states hv

/-- after a document has been written to the file of a scope, the settings can be read, from the layers with the
document in place of that file -/
theorem read_written [Codec] [LawfulCodec] {m : Manager} {files written : Tree} {scope : Scope} {es : Entries}
    (hread : ∃ t, (m.read files).1 = .ok t) (hes : layerAt written (m.file scope) = .ok es)
    (hstates : ∀ k, ∃ v, stance es k = .states v)
    (hother : written.bytes? (m.file scope.other) = files.bytes? (m.file scope.other)) :
    ∃ t, (m.read written).1 = .ok t ∧ ∀ k, t.get k = normal k (laidBy k (m.layersWith files es scope)) := by
  obtain ⟨huser, hproject, husable⟩ := (m.read_returns_iff files).1 hread
  have hnew := entriesAt_of_layerAt hes
  have hold := entriesAt_congr hother
  have hreadable := (layerAt_ok_iff written (m.file scope)).1 ⟨es, hes⟩
  suffices hok : (∃ t, (m.read written).1 = .ok t) ∧ m.layersIn written = m.layersWith files es scope by
    obtain ⟨⟨t, ht⟩, hlayers⟩ := hok
    exact ⟨t, ht, fun k => by rw [get_of_read ht, hlayers]⟩
  rw [read_returns_iff]
  cases scope with
  | project =>
    simp only [file, Scope.other] at hnew hold hother hreadable
    refine ⟨⟨(readable_congr hother).2 huser, hreadable, fun part hpart => ?_⟩, ?_⟩
    · obtain ⟨fs, hfs⟩ := exists_section hstates hpart
      rw [topmost, hnew, hfs]
      exact usable_map fs
    · rw [layersIn, layersWith, hnew, hold]
  | user =>
    simp only [file, Scope.other] at hnew hold hother hreadable
    refine ⟨⟨hreadable, (readable_congr hother).2 hproject, fun part hpart => ?_⟩, ?_⟩
    · -- the project's section is as usable as before, and if there is none the new one counts
      obtain ⟨fs, hfs⟩ := exists_section hstates hpart
      have hbefore := husable part hpart
      rw [topmost] at hbefore
      rw [topmost, hnew, hold, hfs]
      cases hsection : Entries.field? (entriesAt files m.projectFile) part with
      | none => exact usable_map fs
      | some v =>
        rw [hsection] at hbefore
        exact hbefore
    · rw [layersIn, layersWith, hnew, hold]

/-! ## One call -/

/-- a value that is set is a flag, a text or a list of texts -/
theorem get_change_self {s next : Settings} {key text : String} {k : Setting} (h : change s k key text = .ok next) :
    (∃ x, x.Settled ∧ next.get k = .scalar x) ∨ ∃ names, next.get k = .texts names := by
  cases k with
  | strictBem => exact Or.inl ⟨.bool next.strictBem, trivial, rfl⟩
  | allowUnknown => exact Or.inl ⟨.bool next.allowUnknown, trivial, rfl⟩
  | customUtilities =>
    cases h
    exact Or.inr ⟨_, rfl⟩
  | symbols =>
    cases h
    exact Or.inl ⟨.text text, trivial, rfl⟩
  | format =>
    cases h
    exact Or.inl ⟨.text text, trivial, rfl⟩
  | excludeDirs => exact Or.inr ⟨_, rfl⟩

theorem eq_of_same_change {s next : Settings} {key text : String} {k : Setting} (h : change s k key text = .ok next)
    {v : Value} (hv : v.Same (next.get k)) : v = next.get k := by
  rcases get_change_self h with ⟨x, hsettled, hx⟩ | ⟨names, hnames⟩
  · rw [hx] at hv ⊢
    exact hv.eq_scalar hsettled
  · rw [hnames] at hv ⊢
    exact hv.eq_texts

theorem not_isMap_change {s next : Settings} {key text : String} {k : Setting} (h : change s k key text = .ok next) :
    ¬ (next.get k).IsMap := by
  rcases get_change_self h with ⟨x, -, hx⟩ | ⟨names, hnames⟩
  · simp [hx, Value.IsMap]
  · simp [hnames, Value.IsMap, Value.texts]

section

variable [Codec] [LawfulCodec] {m : Manager} {files : Tree} {s next : Settings} {key text : String} {k : Setting}
  {es : Entries}

/-- what is written to the project's file is what is read -/
theorem same_of_project (hs : ∀ j, (s.get j).Same (normal j (laidBy j (m.layersIn files))))
    (hchange : change s k key text = .ok next) (hes : Value.Keyed (.map es))
    (hstates : ∀ j, ∃ v, stance es j = .states v ∧ v.Same (next.get j)) (j : Setting) :
    (normal j (laidBy j (m.layersWith files es .project))).Same (next.get j) := by
  obtain ⟨v, hv, hsame⟩ := hstates j
  have hlaid : laidBy j (m.layersWith files es .project) =
      some (Value.over (laidBy j [entriesAt files m.userFile, (envLayer m.env).1]) v) :=
    congrArg (Stance.over · _) hv
  rw [hlaid]
  by_cases hj : j = k
  · subst hj
    obtain rfl := eq_of_same_change hchange hsame
    rw [Value.over_of_not_isMap (not_isMap_change hchange)]
    exact normal_of_same hsame
  · rw [get_change hchange hj] at hsame ⊢
    exact normal_over_below (fun u hu => stance_keyed (entriesAt_keyed files m.projectFile) hu) (hs j)
      (stance_keyed hes hv) hsame

/-- what is written to the user's file is what is read, as far as the project's file does not hide it -/
theorem same_of_user_iff (hs : ∀ j, (s.get j).Same (normal j (laidBy j (m.layersIn files))))
    (hchange : change s k key text = .ok next)
    (hstates : ∀ j, ∃ v, stance es j = .states v ∧ v.Same (next.get j)) :
    (∀ j, (normal j (laidBy j (m.layersWith files es .user))).Same (next.get j)) ↔
      (normal k ((stance (entriesAt files m.projectFile) k).over (some (next.get k)))).Same (next.get k) := by
  have hlaid : ∀ j v, stance es j = .states v → laidBy j (m.layersWith files es .user) =
      (stance (entriesAt files m.projectFile) j).over (some (Value.over (laidBy j [(envLayer m.env).1]) v)) :=
    fun j v hv => congrArg (fun σ => Stance.over _ (Stance.over σ _)) hv
  have hself : laidBy k (m.layersWith files es .user) =
      (stance (entriesAt files m.projectFile) k).over (some (next.get k)) := by
    obtain ⟨v, hv, hsame⟩ := hstates k
    rw [hlaid k v hv, eq_of_same_change hchange hsame, Value.over_of_not_isMap (not_isMap_change hchange)]
  constructor
  · intro hall
    exact hself ▸ hall k
  · intro hk j
    by_cases hj : j = k
    · subst hj
      rw [hself]
      exact hk
    · obtain ⟨v, hv, hsame⟩ := hstates j
      rw [get_change hchange hj] at hsame ⊢
      rw [hlaid j v hv]
      exact normal_over_written (fun u hu => stance_keyed (entriesAt_keyed files m.projectFile) hu)
        (fun hpart => laidBy_envLayer m.env hpart) (hs j) hsame

end

namespace State

variable [Codec] {st : State} {c : Call}

/-- a call keeps the paths of the manager -/
theorem apart_step (h : st.manager.Apart) (hco : st.Coherent) (hret : st.Returns c) : (st.step c).manager.Apart := by
  obtain ⟨s, -, hs, -⟩ := hco
  have houtcome := set_outcome hs hret
  unfold step call
  generalize st.manager.set st.files c.key c.text c.scope = change at houtcome ⊢
  cases houtcome with
  | refused edited => exact ⟨h.user, h.project, h.different⟩
  | dropped edited problem => exact ⟨h.user, h.project, h.different⟩
  | saved edited problem wrote => exact ⟨h.user, h.project, h.different⟩

/-- a manager that holds settings is coherent if these are read -/
theorem coherent_holding_iff {m : Manager} {files : Tree} {s t : Settings} (h : (m.read files).1 = .ok t) :
    Coherent ⟨m.holding s, files⟩ ↔ ∀ k, (t.get k).Same (s.get k) := by
  have hcurrent : State.current ⟨m.holding s, files⟩ = .ok t := h ▸ fresh_load_fst _ _
  constructor
  · rintro ⟨_, t', ⟨⟩, ht', hall⟩ k
    rw [hcurrent] at ht'
    cases ht'
    exact (hall k).symm
  · intro hall
    exact ⟨s, t, rfl, hcurrent, fun k => (hall k).symm⟩

/-- **One call.** It leads from a coherent state to a coherent one exactly if what it saves is not hidden. -/
theorem coherent_step_iff [LawfulCodec] (h : st.manager.Apart) (hco : st.Coherent) (hret : st.Returns c)
    (hkeeps : st.Keeps c) : (st.step c).Coherent ↔ st.Unhidden c := by
  obtain ⟨s, t, hs, ht, hsame⟩ := hco
  have houtcome := set_outcome hs hret
  unfold step call
  generalize st.manager.set st.files c.key c.text c.scope = change at houtcome ⊢
  cases houtcome with
  | refused edited =>
    have hnone : st.saved? c = none := by simp only [saved?, hs, edited]
    exact iff_of_true ⟨s, t, rfl, ht, hsame⟩ fun _ => by simp [hnone]
  | dropped edited problem =>
    have hnone : st.saved? c = none := by simp only [saved?, hs, edited, problem]
    exact iff_of_true ⟨t, t, ht, ht, fun k => Same.refl _⟩ fun _ => by simp [hnone]
  | @saved k next ws written left edited problem wrote =>
    have hsome : st.saved? c = some (k, next) := by simp only [saved?, hs, edited, problem]
    obtain ⟨-, hchange⟩ := edit_eq_ok edited
    have hread : (st.manager.read st.files).1 = .ok t := by rw [← fresh_load_fst]; exact ht
    have hget : ∀ j, (s.get j).Same (normal j (laidBy j (st.manager.layersIn st.files))) :=
      fun j => get_of_read hread j ▸ hsame j
    -- the document is read back, and the other file is as before
    have hown := bytes?_write (h.plain c.scope) (h.plain c.scope) wrote
    have hother := bytes?_write (h.plain c.scope) (h.plain c.scope.other) wrote
    rw [if_pos rfl] at hown
    rw [if_neg (parts_other_ne h c.scope)] at hother
    obtain ⟨es, hes, hstates⟩ := layerAt_document (hkeeps _ hsome) hown
    obtain ⟨t', ht', hget'⟩ := read_written ⟨t, hread⟩ hes (fun j => (hstates j).imp fun v hv => hv.1) hother
    rw [coherent_holding_iff ht']
    simp only [hget']
    cases hscope : c.scope with
    | project =>
      have hall := same_of_project hget hchange (layerAt_keyed hes) hstates
      exact iff_of_true hall (by simp [Unhidden, hscope])
    | user =>
      rw [same_of_user_iff hget hchange hstates]
      simp [Unhidden, hscope, hsome]

/-- along a run from a coherent state, each call leads to a coherent one exactly if none saves what is hidden -/
theorem along_coherent_iff [LawfulCodec] (calls : List Call) {st : State} (h : st.manager.Apart) (hco : st.Coherent)
    (hret : Along Returns st calls) (hkeeps : Along Keeps st calls) :
    Along (fun st c => (st.step c).Coherent) st calls ↔ Along Unhidden st calls := by
  induction calls generalizing st with
  | nil => exact Iff.rfl
  | cons c calls ih =>
    have hstep := coherent_step_iff h hco hret.1 hkeeps.1
    have hrest (hco' : (st.step c).Coherent) := ih (apart_step h hco hret.1) hco' hret.2 hkeeps.2
    constructor
    · rintro ⟨hco', hall⟩
      exact ⟨hstep.1 hco', (hrest hco').1 hall⟩
    · rintro ⟨hunhidden, hall⟩
      have hco' := hstep.2 hunhidden
      exact ⟨hco', (hrest hco').2 hall⟩

end State

open State

/-- **Coherence.** Let the settings of a project load, and let calls be made on one manager that all come to an end, by
a writer whose documents can be read back. Then after each call the manager has the settings that a new one would load,
exactly if no call saves a value to the user's file that the project's file hides. -/
theorem coherent_iff [Codec] [LawfulCodec] (m : Manager) (files : Tree) (s : Settings) (calls : List Call)
    (h : m.Apart) (hload : (m.fresh.load files).1 = .ok s) (hret : Along Returns ⟨m.fresh, files⟩ calls)
    (hkeeps : Along Keeps ⟨m.fresh, files⟩ calls) :
    Along (fun st c => (st.step c).Coherent) ⟨m.fresh, files⟩ calls ↔ Along Unhidden ⟨m.fresh, files⟩ calls :=
  along_coherent_iff calls ⟨h.user, h.project, h.different⟩ ⟨s, s, hload, hload, fun _ => Same.refl _⟩ hret hkeeps

/-! ## Runs in sample projects -/

/-- the sample project with an excluded directory, before any call -/
def distState : State := ⟨strictSample.fresh, distFiles⟩

def tableCall : Call := ⟨"display.format", "table", .user⟩

def asciiCall : Call := ⟨"display.symbols", "ascii", .user⟩

/-- a format that is dropped and symbols that are saved where the project's file is silent -/
theorem coherent_iff_ascii : Along (fun st c => (st.step c).Coherent) distState [tableCall, asciiCall] := by
  have hdropped : distState.saved? tableCall = none := by decide +kernel
  have hsaved : (distState.step tableCall).saved? asciiCall = some (.symbols, asciiSettings) := by decide +kernel
  have hret : Along Returns distState [tableCall, asciiCall] := by
    refine ⟨?_, ?_, trivial⟩ <;> unfold Returns <;> decide +kernel
  have hkeeps : Along Keeps distState [tableCall, asciiCall] := by
    refine ⟨?_, ?_, trivial⟩ <;> unfold Keeps
    · simp [hdropped]
    · simpa [hsaved] using kept_ascii
  have hunhidden : Along Unhidden distState [tableCall, asciiCall] := by
    have hnormal : normal .symbols ((stance (entriesAt (distState.step tableCall).files
        (distState.step tableCall).manager.projectFile) .symbols).over (some (.text "ascii"))) = .text "ascii" := by
      decide +kernel
    refine ⟨fun _ => by simp [hdropped], fun _ saved hmem => ?_, trivial⟩
    obtain rfl : (.symbols, asciiSettings) = saved := by simpa [hsaved] using hmem
    exact hnormal ▸ Same.refl _
  exact (coherent_iff strictSample distFiles _ _ (apart_create _) load_dist hret hkeeps).2 hunhidden

/-- a project file that asks for rules that are not strict -/
def looseState : State := ⟨sample.fresh, bothOf "" "rules:\n  strict_bem: false\n"⟩

def strictCall : Call := ⟨"rules.strict_bem", "true", .user⟩

/-- **A call that hides what it saves:** the rules are made strict in the user's file while the project's file says
they are not. The call is accepted, the manager has strict rules from then on, and a new one does not. -/
theorem hidden_incoherent :
    (looseState.call strictCall).result.toOption = some none ∧
    (looseState.step strictCall).held.toOption.map (·.get .strictBem) = some (.bool true) ∧
    (looseState.step strictCall).current.toOption.map (·.get .strictBem) = some (.bool false) := by
  decide +kernel

end Manager

end ClassNaming
