/-
Setting the linter up where a configuration is there.

The setup is said here as a program on the files, one access after the other, so that it can be asked what the files are
when it stops at a fault. It reads the configuration, looks for its list of plugins, and writes last, if at all.

- `settingUp_eq`: the program comes to what `setUp` returns, and one that stops at a fault has written nothing.
- `unfit_or_fits`: a content holds a configuration that can be updated, or one of three things is wrong with it.
- `isMissing_missing`: the plugins to append are those that are not listed, once each and in the order of the request.
- `extended_insert`: a list of plugins put into a configuration leaves the other members and their order.
- `update_exact`: what a setup does to a file that is there.
-/
import ClassNaming.Proofs.Lint.Rerun

namespace ClassNaming.Lint

open Json (PlainEntries)

/-! ## One access after the other -/

/-- look something up in the files; a fault leaves them as they are -/
def looking {α : Type} (look : Tree → Except Fault α) : EStateM Fault Tree α := fun files =>
  match look files with
  | .ok found => .ok found files
  | .error cause => .error cause files

/-- write a configuration; a file that cannot be written is left as it is -/
def writing (p : Path) (config : Value) : EStateM Fault Tree Unit := fun files =>
  match files.writeText p (text config) with
  | .ok written => .ok () written
  | .error cause => .error cause files

/-- append the plugins that are not listed to the list, and count them -/
def appending : List Value → ℕ → List String → List Value × ℕ
  | items, added, [] => (items, added)
  | items, added, plugin :: rest =>
    if items.any (isText plugin) then appending items added rest
    else appending (items ++ [.text plugin]) (added + 1) rest

/-- write a fresh configuration -/
def creating (p : Path) (plugins : List String) : EStateM Fault Tree Report := do
  writing p (freshConfig plugins)
  return ⟨p, true, plugins.length⟩

/-- read a configuration, append the missing plugins to its list, and write it if there were any -/
def updating (p : Path) (plugins : List String) : EStateM Fault Tree Report := do
  let config ← looking (read · p)
  let old ← looking fun _ => listed p config
  let (items, added) := appending old 0 plugins
  if 0 < added then
    writing p (.map (Entries.insert config (.text "plugins") (.list items)))
  return ⟨p, false, added⟩

/-- a setup as it is carried out on the files -/
def settingUp (dir : Path) (plugins : List String) : EStateM Fault Tree Report := do
  let p := dir.append [fileName]
  if (← get).has p then updating p plugins else creating p plugins

theorem appending_eq (old : List Value) (added : ℕ) (plugins : List String) :
    appending old added plugins = (old ++ (missing old plugins).map .text, added + (missing old plugins).length) := by
  induction plugins generalizing old added with
  | nil => simp [appending, missing]
  | cons plugin plugins ih =>
    rw [appending, missing]
    split_ifs
    · exact ih old added
    · rw [ih]
      simp only [List.map_cons, List.length_cons, List.append_assoc, List.singleton_append, Prod.mk.injEq, true_and]
      omega

theorem seq_eq {α β : Type} (x : EStateM Fault Tree α) (f : α → EStateM Fault Tree β) (files : Tree) :
    (x >>= f) files = match x files with
      | .ok a after => f a after
      | .error cause after => .error cause after := by
  simp only [bind, EStateM.bind]
  cases x files <;> rfl

/-- what a run leaves: the files it returns, or those that were there -/
def left (files : Tree) : Except Fault (Report × List LogEntry × Tree) → EStateM.Result Fault Tree Report
  | .ok (report, _, after) => .ok report after
  | .error cause => .error cause files

theorem creating_eq (files : Tree) (p : Path) (plugins : List String) :
    creating p plugins files = left files (create files p plugins) := by
  rw [creating, seq_eq, writing, create]
  cases files.writeText p (text (freshConfig plugins)) <;> rfl

theorem updating_eq (files : Tree) (p : Path) (plugins : List String) :
    updating p plugins files = left files (update files p plugins) := by
  rw [updating, seq_eq, looking, update]
  cases read files p with
  | error cause => rfl
  | ok config =>
    dsimp only
    rw [seq_eq, looking]
    cases hlisted : listed p config with
    | error cause => simp [hlisted, bind, Except.bind, left]
    | ok old =>
      simp only [hlisted, bind, Except.bind, appending_eq, Nat.zero_add, List.length_pos_iff]
      cases hnew : missing old plugins with
      | nil => rfl
      | cons plugin more =>
        rw [if_pos (List.cons_ne_nil plugin more), if_neg (by simp)]
        simp only [EStateM.bind, writing]
        cases files.writeText p _ <;> rfl

/-- **A setup that stops has written nothing:** one that succeeds leaves the files that `setUp` returns, and one that
fails leaves them as they were. -/
theorem settingUp_eq (files : Tree) (dir : Path) (plugins : List String) :
    settingUp dir plugins files = left files (setUp files dir plugins) := by
  have hget : settingUp dir plugins files = (if files.has (dir.append [fileName]) then
      updating (dir.append [fileName]) plugins else creating (dir.append [fileName]) plugins) files := rfl
  rw [hget, setUp]
  split_ifs
  · exact updating_eq files _ plugins
  · exact creating_eq files _ plugins

/-! ## What a content holds -/

/-- the JSON value that a content is the text of, its line ends unified -/
def decoded? (content : List UInt8) : Option Value :=
  match Utf8.decode content with
  | .error _ => none
  | .ok cs =>
    match Json.readChars (Text.unifyLineEnds cs) with
    | .error _ => none
    | .ok v => some v

/-- no integer in the content has more digits than are read -/
def WithinDigits (content : List UInt8) : Prop :=
  ∀ cs digits, Utf8.decode content = .ok cs →
    Json.readChars (Text.unifyLineEnds cs) ≠ .error (.longInteger digits)

/-- what can be wrong with a content: it is no JSON, no object, or its plugins are no list -/
inductive Unfit (content : List UInt8) : Prop where
  | notJson (h : decoded? content = none)
  | notObject {v : Value} (h : decoded? content = some v) (hv : ∀ es, v ≠ .map es)
  | notList {config : Entries} {v : Value} (h : decoded? content = some (.map config))
      (hfield : Entries.field? config "plugins" = some v) (hv : ∀ items, v ≠ .list items)

/-- the content is a configuration that lists these plugins, or none -/
structure Fits (content : List UInt8) (config : Entries) (old : List Value) : Prop where
  decodes : decoded? content = some (.map config)
  lists : Entries.field? config "plugins" = some (.list old) ∨ Entries.field? config "plugins" = none ∧ old = []

theorem unfit_or_fits (content : List UInt8) : Unfit content ∨ ∃ config old, Fits content config old := by
  cases hdecoded : decoded? content with
  | none => exact .inl (.notJson hdecoded)
  | some v =>
    cases v with
    | map config =>
      cases hfield : Entries.field? config "plugins" with
      | none => exact .inr ⟨config, [], hdecoded, .inr ⟨hfield, rfl⟩⟩
      | some plugins =>
        cases plugins with
        | list old => exact .inr ⟨config, old, hdecoded, .inl hfield⟩
        | scalar s => exact .inl (.notList hdecoded hfield (by simp))
        | map es => exact .inl (.notList hdecoded hfield (by simp))
        | record name shown es => exact .inl (.notList hdecoded hfield (by simp))
    | scalar s => exact .inl (.notObject hdecoded (by simp))
    | list items => exact .inl (.notObject hdecoded (by simp))
    | record name shown es => exact .inl (.notObject hdecoded (by simp))

theorem Fits.not_unfit {content : List UInt8} {config : Entries} {old : List Value} (h : Fits content config old) :
    ¬ Unfit content := by
  intro hunfit
  cases hunfit with
  | notJson hnone =>
    rw [h.decodes] at hnone
    cases hnone
  | notObject hv hno =>
    rw [h.decodes] at hv
    exact hno config (Option.some.inj hv).symm
  | notList hconfig hfield hno =>
    rw [h.decodes] at hconfig
    cases hconfig
    rcases h.lists with hlist | ⟨hnone, -⟩
    · rw [hfield] at hlist
      exact hno old (Option.some.inj hlist)
    · rw [hfield] at hnone
      cases hnone

variable {files : Tree} {p : Path} {content : List UInt8}

theorem readText_content (h : files.readBytes p = .ok content) :
    files.readText p = (Utf8.decode content).map Text.unifyLineEnds := by
  rw [Tree.readText, h]
  change (Utf8.decode content).bind _ = _
  cases Utf8.decode content <;> rfl

/-- the content of a file decides what is read: a value that is an object, or a complaint -/
theorem read_of_decoded (hfile : files.readBytes p = .ok content) {v : Value} (h : decoded? content = some v) :
    read files p = match v with
      | .map config => .ok config
      | _ => .error (.lint (p.text ++ " must contain a JSON object")) := by
  unfold decoded? at h
  split at h
  · cases h
  · rename_i cs hcs
    split at h
    · cases h
    · rename_i hread
      cases h
      rw [read, readText_content hfile, hcs]
      simp only [Except.map, hread]
      cases v <;> rfl

theorem read_of_undecoded (hfile : files.readBytes p = .ok content) (hdigits : WithinDigits content)
    (h : decoded? content = none) : ∃ message, read files p = .error (.lint message) := by
  rw [read, readText_content hfile]
  unfold decoded? at h
  split at h
  · rename_i cause hcause
    rw [hcause]
    exact ⟨_, rfl⟩
  · rename_i cs hcs
    rw [hcs]
    simp only [Except.map]
    split at h
    · rename_i stop hstop
      rw [hstop]
      cases stop with
      | fault reason place => exact ⟨_, rfl⟩
      | longInteger digits => exact absurd hstop (hdigits cs digits hcs)
    · cases h

theorem listed_of_fits {config : Entries} {old : List Value} (h : Fits content config old) :
    listed p config = .ok old := by
  unfold listed
  rcases h.lists with hlist | ⟨hnone, rfl⟩
  · rw [hlist]
  · rw [hnone]

/-- with an unfit content the setup stops at the complaint about it -/
theorem update_of_unfit (hfile : files.readBytes p = .ok content) (hdigits : WithinDigits content)
    (h : Unfit content) (plugins : List String) : ∃ message, update files p plugins = .error (.lint message) := by
  have hstops : ∀ {message}, read files p = .error (.lint message) →
      update files p plugins = .error (.lint message) := by
    intro message hread
    simp [update, hread, bind, Except.bind]
  cases h with
  | notJson hnone =>
    obtain ⟨message, hread⟩ := read_of_undecoded hfile hdigits hnone
    exact ⟨message, hstops hread⟩
  | @notObject v hv hno =>
    have hread := read_of_decoded hfile hv
    cases v with
    | map es => exact absurd rfl (hno es)
    | scalar s => exact ⟨_, hstops hread⟩
    | list items => exact ⟨_, hstops hread⟩
    | record name shown es => exact ⟨_, hstops hread⟩
  | @notList config v hconfig hfield hno =>
    have hread : read files p = .ok config := read_of_decoded hfile hconfig
    have hlisted : listed p config = .error (.lint ("\"plugins\" in " ++ p.text ++ " must be a list")) := by
      rw [listed, hfield]
      cases v with
      | list items => exact absurd rfl (hno items)
      | map es => rfl
      | scalar s => rfl
      | record name shown es => rfl
    have hupdate : update files p plugins = .error (.lint ("\"plugins\" in " ++ p.text ++ " must be a list")) := by
      simp [update, hread, hlisted, bind, Except.bind]
    exact ⟨_, hupdate⟩

/-! ## The plugins to append -/

theorem isText_iff {plugin : String} {v : Value} : isText plugin v = true ↔ v = .text plugin := by
  unfold isText
  split
  · rename_i t
    simp
  · rename_i hno
    exact ⟨fun h => absurd h (by simp), fun h => absurd h (hno plugin)⟩

theorem lists_iff {items : List Value} {plugin : String} : Lists items plugin ↔ .text plugin ∈ items := by
  simp only [Lists, List.any_eq_true, isText_iff, exists_eq_right]

theorem missing_of_mem {old : List Value} {first : String} (h : .text first ∈ old) (plugins : List String) :
    missing old (first :: plugins) = missing old plugins := by
  have hlisted : old.any (isText first) = true := lists_iff.2 h
  rw [missing, if_pos hlisted]

theorem missing_of_notMem {old : List Value} {first : String} (h : .text first ∉ old) (plugins : List String) :
    missing old (first :: plugins) = first :: missing (old ++ [.text first]) plugins := by
  have hlisted : ¬ old.any (isText first) = true := fun hany => h (lists_iff.1 hany)
  rw [missing, if_neg hlisted]

/-- the plugins of a request that are not listed, once each and in the order in which they are first asked for -/
structure IsMissing (old : List Value) (plugins new : List String) : Prop where
  mem : ∀ plugin, plugin ∈ new ↔ plugin ∈ plugins ∧ .text plugin ∉ old
  once : new.Nodup
  ordered : new.Pairwise fun a b => plugins.idxOf a < plugins.idxOf b

theorem mem_missing {old : List Value} {plugins : List String} {plugin : String} :
    plugin ∈ missing old plugins ↔ plugin ∈ plugins ∧ .text plugin ∉ old := by
  induction plugins generalizing old with
  | nil => simp [missing]
  | cons first plugins ih =>
    by_cases hfirst : .text first ∈ old
    · rw [missing_of_mem hfirst, ih, List.mem_cons]
      refine and_congr_left fun hnot => (or_iff_right ?_).symm
      rintro rfl
      exact hnot hfirst
    · rw [missing_of_notMem hfirst, List.mem_cons, ih, List.mem_cons]
      by_cases hsame : plugin = first
      · subst hsame
        simp [hfirst]
      · simp [hsame]

theorem ordered_missing (old : List Value) (plugins : List String) :
    (missing old plugins).Pairwise fun a b => plugins.idxOf a < plugins.idxOf b := by
  induction plugins generalizing old with
  | nil => simp [missing]
  | cons first plugins ih =>
    -- once the first plugin is listed, only others are missing, and they stand a place later
    have hne : ∀ {items : List Value}, .text first ∈ items → ∀ x ∈ missing items plugins, first ≠ x := by
      rintro items hitems x hx rfl
      exact (mem_missing.1 hx).2 hitems
    have hlater : ∀ {items : List Value}, .text first ∈ items →
        (missing items plugins).Pairwise fun a b => (first :: plugins).idxOf a < (first :: plugins).idxOf b := by
      intro items hitems
      refine (ih items).imp_of_mem fun {a b} ha hb hab => ?_
      rw [List.idxOf_cons_ne _ (hne hitems a ha), List.idxOf_cons_ne _ (hne hitems b hb)]
      exact Nat.succ_lt_succ hab
    by_cases hfirst : .text first ∈ old
    · rw [missing_of_mem hfirst]
      exact hlater hfirst
    · have hmem : .text first ∈ old ++ [Value.text first] := by simp
      rw [missing_of_notMem hfirst]
      refine List.pairwise_cons.2 ⟨fun x hx => ?_, hlater hmem⟩
      rw [List.idxOf_cons_self, List.idxOf_cons_ne _ (hne hmem x hx)]
      exact Nat.succ_pos _

theorem isMissing_missing (old : List Value) (plugins : List String) : IsMissing old plugins (missing old plugins) where
  mem := fun _ => mem_missing
  once := (ordered_missing old plugins).imp fun h => ne_of_apply_ne plugins.idxOf h.ne
  ordered := ordered_missing old plugins

/-! ## The configuration that is written -/

/-- the configuration with another list of plugins: the same members in the same order, the plugins last if they are
new, and the same value for every other member -/
structure Extended (config new : Entries) (items : List Value) : Prop where
  names : new.map Prod.fst =
    if .text "plugins" ∈ config.map Prod.fst then config.map Prod.fst else config.map Prod.fst ++ [.text "plugins"]
  plugins : Entries.field? new "plugins" = some (.list items)
  others : ∀ name, name ≠ "plugins" → Entries.field? new name = Entries.field? config name

theorem keyForms_eq {es : Entries} (h : ∀ e ∈ es, ∃ name, e.1 = .text name) :
    (es.map fun e => e.1.keyForm) = es.map Prod.fst := by
  refine List.map_congr_left fun e he => ?_
  obtain ⟨name, hname⟩ := h e he
  rw [hname]
  rfl

/-- a list of plugins put into a configuration leaves the other members and their order -/
theorem extended_insert {config : Entries} (h : PlainEntries config) {items : List Value}
    (hitems : ∀ v ∈ items, Json.Plain v) :
    Extended config (Entries.insert config (.text "plugins") (.list items)) items where
  names := by
    have hkeys := Entries.keys_insert config (.text "plugins") (.list items)
    rwa [keyForms_eq h.keys, keyForms_eq (h.insert "plugins" (.list hitems)).keys] at hkeys
  plugins := by
    rw [Entries.field?, Entries.lookup?_insert, if_pos (by decide)]
  others := fun name hname => by
    have hother : (Scalar.text "plugins").sameKey (.text name) = false := by
      simpa [Scalar.sameKey, Scalar.keyForm] using hname.symm
    rw [Entries.field?, Entries.lookup?_insert, hother]
    rfl

theorem decoded_of_holds (hfile : files.readBytes p = .ok content) {config : Entries} (h : Holds files p config) :
    decoded? content = some (.map config) := by
  have htext := h.text
  rw [readText_content hfile] at htext
  cases hcs : Utf8.decode content with
  | error cause =>
    rw [hcs] at htext
    cases htext
  | ok cs =>
    rw [hcs] at htext
    have hchars : Text.unifyLineEnds cs = (text (.map config)).toList := Except.ok.inj htext
    simp only [decoded?, hcs, hchars, h.reads]

/-! ## What a setup does to a file that is there -/

variable {dir : Path}

theorem setUp_of_unfit (hfile : files.readBytes (dir.append [fileName]) = .ok content)
    (hdigits : WithinDigits content) (h : Unfit content) (plugins : List String) :
    ∃ message, setUp files dir plugins = .error (.lint message) := by
  obtain ⟨message, hupdate⟩ := update_of_unfit hfile hdigits h plugins
  exact ⟨message, by rw [setUp, if_pos (Tree.has_of_readBytes hfile), hupdate]⟩

/-- a setup that finds all plugins leaves the file alone -/
theorem setUp_of_listed (hfile : files.readBytes (dir.append [fileName]) = .ok content) {config : Entries}
    {old : List Value} (h : Fits content config old) {plugins : List String}
    (hall : ∀ plugin ∈ plugins, .text plugin ∈ old) :
    setUp files dir plugins = .ok (⟨dir.append [fileName], false, 0⟩, [], files) :=
  setUp_all (read_of_decoded hfile h.decodes) (listed_of_fits h)
    (missing_eq_nil_iff.2 fun plugin hplugin => lists_iff.2 (hall plugin hplugin))

/-- a setup that misses plugins writes the configuration with all of them -/
theorem setUp_of_missing (hfile : files.readBytes (dir.append [fileName]) = .ok content) {config : Entries}
    {old : List Value} (h : Fits content config old) {plugins : List String} (hsome : missing old plugins ≠ []) :
    ∃ log after, setUp files dir plugins =
        .ok (⟨dir.append [fileName], false, (missing old plugins).length⟩, log, after) ∧
      files.writeText (dir.append [fileName]) (text (.map (completed config old plugins))) = .ok after := by
  obtain ⟨after, hwrite⟩ := Tree.writeBytes_over hfile (show fileName ≠ ".." by decide)
    (Utf8.encode (text (.map (completed config old plugins))).toList)
  have hwrite : files.writeText (dir.append [fileName]) (text (.map (completed config old plugins))) = .ok after := hwrite
  have hread : read files (dir.append [fileName]) = .ok config := read_of_decoded hfile h.decodes
  refine ⟨[entry ("Added " ++ natText (missing old plugins).length ++ " plugin(s) to " ++
    (dir.append [fileName]).text)], after, ?_, hwrite⟩
  rw [completed] at hwrite
  rw [setUp, if_pos (Tree.has_of_readBytes hfile), update]
  simp only [hread, listed_of_fits h, bind, Except.bind]
  rw [if_neg (by simpa using hsome), hwrite]
  rfl

/-- **Updating a configuration.** Over any file that is there, a setup stops at a complaint exactly if the file is no
JSON, no object, or its plugins are no list, and then nothing has been written. Otherwise, if all plugins are listed,
the files stay as they are, byte for byte. If not, the plugins that are missing are appended to the list, once each and
in the order of the request: the file is read as the configuration with this list, its other members and their order
are as before, and no other file has changed. -/
theorem update_exact (plugins : List String) (hfile : files.readBytes (dir.append [fileName]) = .ok content)
    (hdigits : WithinDigits content) :
    ((∃ message, setUp files dir plugins = .error (.lint message)) ↔ Unfit content) ∧
    (∀ cause, setUp files dir plugins = .error cause → settingUp dir plugins files = .error cause files) ∧
    (¬ Unfit content → ∃ config old, Fits content config old ∧
      ((∀ plugin ∈ plugins, .text plugin ∈ old) →
        setUp files dir plugins = .ok (⟨dir.append [fileName], false, 0⟩, [], files)) ∧
      ((∃ plugin ∈ plugins, .text plugin ∉ old) → ∃ new log after written config', IsMissing old plugins new ∧
        setUp files dir plugins = .ok (⟨dir.append [fileName], false, new.length⟩, log, after) ∧
        after.readBytes (dir.append [fileName]) = .ok written ∧ decoded? written = some (.map config') ∧
        Extended config config' (old ++ new.map .text) ∧
        ∀ trail name, files.place (dir.append [fileName]) = .ok (trail, name) →
          ∀ other, other ≠ trail ++ [name] → after.fileAt other = files.fileAt other)) := by
  refine ⟨⟨fun ⟨message, hstop⟩ => ?_, fun h => setUp_of_unfit hfile hdigits h plugins⟩, fun cause hcause => ?_,
    fun hfit => ?_⟩
  · -- a configuration that fits does not stop the setup
    refine (unfit_or_fits content).resolve_right ?_
    rintro ⟨config, old, hfits⟩
    by_cases hsome : missing old plugins = []
    · have hall : ∀ plugin ∈ plugins, .text plugin ∈ old := fun plugin hplugin =>
        lists_iff.1 (missing_eq_nil_iff.1 hsome plugin hplugin)
      rw [setUp_of_listed hfile hfits hall] at hstop
      cases hstop
    · obtain ⟨log, after, hrun, -⟩ := setUp_of_missing hfile hfits hsome
      rw [hrun] at hstop
      cases hstop
  · rw [settingUp_eq, hcause]
    rfl
  · obtain ⟨config, old, hfits⟩ := (unfit_or_fits content).resolve_left hfit
    refine ⟨config, old, hfits, setUp_of_listed hfile hfits, ?_⟩
    rintro ⟨plugin, hplugin, hnot⟩
    have hnew : plugin ∈ missing old plugins := mem_missing.2 ⟨hplugin, hnot⟩
    obtain ⟨log, after, hrun, hwrite⟩ := setUp_of_missing hfile hfits (List.ne_nil_of_mem hnew)
    have hplain : PlainEntries config := plain_of_read (read_of_decoded hfile hfits.decodes)
    have hlisted := listed_of_fits (p := dir.append [fileName]) hfits
    have hbytes := Tree.readBytes_writeBytes hwrite
    have hholds := holds_of_write (plain_completed hplain hlisted plugins) hwrite
    have hextended : Extended config (completed config old plugins) (old ++ (missing old plugins).map .text) := by
      refine extended_insert hplain fun v hv => ?_
      rcases List.mem_append.1 hv with hv | hv
      · exact plain_of_listed hplain hlisted v hv
      · obtain ⟨new, -, rfl⟩ := List.mem_map.1 hv
        exact .scalar (.text new)
    exact ⟨_, log, after, _, _, isMissing_missing old plugins, hrun, hbytes, decoded_of_holds hbytes hholds, hextended,
      fun trail name hplace other hother => Tree.fileAt_writeBytes_of_ne hwrite hplace hother⟩

theorem withinDigits_of_decoded (h : (decoded? content).isSome = true) : WithinDigits content := by
  intro cs digits hcs hstop
  simp [decoded?, hcs, hstop] at h

/-- one of three plugins that are asked for is missing, and two of them are the same -/
theorem update_exact_sample :
    sample.readBytes (Path.here.append [fileName]) = .ok (Utf8.encode sampleText.toList) ∧
    WithinDigits (Utf8.encode sampleText.toList) ∧
    ∃ config old new log after, Fits (Utf8.encode sampleText.toList) config old ∧
      IsMissing old ["./b.grit", "./a.grit", "./b.grit"] new ∧ new.length = 1 ∧
      setUp sample .here ["./b.grit", "./a.grit", "./b.grit"] =
        .ok (⟨Path.here.append [fileName], false, new.length⟩, log, after) := by
  have hfile : sample.readBytes (Path.here.append [fileName]) = .ok (Utf8.encode sampleText.toList) := rfl
  have hdigits : WithinDigits (Utf8.encode sampleText.toList) := withinDigits_of_decoded (by decide +kernel)
  have hadded : ((setUp sample .here ["./b.grit", "./a.grit", "./b.grit"]).toOption.map fun done => done.1.added) =
      some 1 := by decide +kernel
  obtain ⟨hstop, -, hupdate⟩ := update_exact ["./b.grit", "./a.grit", "./b.grit"] hfile hdigits
  have hfit : ¬ Unfit (Utf8.encode sampleText.toList) := by
    intro hunfit
    obtain ⟨message, herror⟩ := hstop.2 hunfit
    rw [herror] at hadded
    cases hadded
  obtain ⟨config, old, hfits, hkept, happended⟩ := hupdate hfit
  by_cases hall : ∀ plugin ∈ ["./b.grit", "./a.grit", "./b.grit"], .text plugin ∈ old
  · rw [hkept hall] at hadded
    cases hadded
  · push Not at hall
    obtain ⟨new, log, after, -, -, hmissing, hrun, -⟩ := happended hall
    rw [hrun] at hadded
    exact ⟨hfile, hdigits, config, old, new, log, after, hfits, hmissing, Option.some.inj hadded, hrun⟩

end ClassNaming.Lint
