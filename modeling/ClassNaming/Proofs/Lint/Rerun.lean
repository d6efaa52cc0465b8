/-
Setting the linter up twice.

A setup writes a fresh configuration, appends the plugins that are not listed, or finds all of them. After each of the
three the plugins are listed, and what was written is read as the configuration that was meant: so a second setup with
the same plugins finds all of them and writes nothing.

- `missing_eq_nil_iff`, `missing_appended`: nothing is missing once the missing plugins are appended.
- `holds_of_write`: a configuration that is written is read back.
- `setUp_done`: the three outcomes, with the configuration that is read back from what was written.
- `setUp_again`: the second setup.
-/
import ClassNaming.Lint.Setup
import ClassNaming.Proofs.Files.ReadBack
import ClassNaming.Proofs.Json.Documents

namespace ClassNaming.Lint

open Json (Plain PlainEntries)

/-! ## The plugins of a list -/

/-- the plugin is one of the values -/
def Lists (listed : List Value) (plugin : String) : Prop := listed.any (isText plugin) = true

theorem lists_append {listed more : List Value} {plugin : String} :
    Lists (listed ++ more) plugin ↔ Lists listed plugin ∨ Lists more plugin := by
  simp only [Lists, List.any_append, Bool.or_eq_true]

theorem lists_texts {plugins : List String} {plugin : String} (h : plugin ∈ plugins) :
    Lists (plugins.map .text) plugin :=
  List.any_eq_true.2 ⟨.text plugin, List.mem_map_of_mem h, beq_self_eq_true plugin⟩

theorem missing_eq_nil_iff {listed : List Value} {plugins : List String} :
    missing listed plugins = [] ↔ ∀ plugin ∈ plugins, Lists listed plugin := by
  induction plugins with
  | nil => simp [missing]
  | cons plugin plugins ih =>
    rw [missing, List.forall_mem_cons]
    by_cases hplugin : listed.any (isText plugin) = true
    · rw [if_pos hplugin, ih]
      exact (and_iff_right hplugin).symm
    · rw [if_neg hplugin]
      exact iff_of_false (List.cons_ne_nil _ _) fun h => hplugin h.1

/-- each plugin is listed or among the missing ones -/
theorem lists_missing {listed : List Value} {plugins : List String} {plugin : String} (h : plugin ∈ plugins) :
    Lists (listed ++ (missing listed plugins).map .text) plugin := by
  induction plugins generalizing listed with
  | nil => cases h
  | cons other plugins ih =>
    rw [missing]
    split_ifs with hother
    · rcases List.mem_cons.1 h with rfl | h
      · exact lists_append.2 (.inl hother)
      · exact ih h
    · rw [List.map_cons, List.append_cons]
      rcases List.mem_cons.1 h with rfl | h
      · exact lists_append.2 (.inl (lists_append.2 (.inr (lists_texts (List.mem_singleton_self _)))))
      · exact ih h

/-- nothing is missing once the missing plugins are appended -/
theorem missing_appended (listed : List Value) (plugins : List String) :
    missing (listed ++ (missing listed plugins).map .text) plugins = [] :=
  missing_eq_nil_iff.2 fun _ h => lists_missing h

/-! ## Configurations and their text -/

/-- the configuration with the missing plugins appended to those it lists -/
def completed (config : Entries) (old : List Value) (plugins : List String) : Entries :=
  Entries.insert config (.text "plugins") (.list (old ++ (missing old plugins).map .text))

/-- the file is the text of a configuration, and is read as that configuration -/
structure Holds (files : Tree) (p : Path) (config : Entries) : Prop where
  has : files.has p = true
  text : files.readText p = .ok (text (.map config)).toList
  reads : Json.readChars (Lint.text (.map config)).toList = .ok (.map config)

theorem Holds.read {files : Tree} {p : Path} {config : Entries} (h : Holds files p config) :
    read files p = .ok config := by
  rw [Lint.read, h.text]
  simp only [h.reads]

theorem text_toList (config : Value) : (text config).toList = (Json.pretty config).toList ++ ['\n'] := by
  simp [text]

/-- a configuration that JSON has is held by the file that is written -/
theorem holds_of_write {files written : Tree} {p : Path} {config : Entries} (hplain : PlainEntries config)
    (h : files.writeText p (text (.map config)) = .ok written) : Holds written p config where
  has := Tree.has_of_readBytes (Tree.readBytes_writeBytes h)
  text := Tree.readText_writeText h (by
    rw [text_toList, List.mem_append, not_or]
    exact ⟨Json.valueChars_noReturn hplain.plain 0, by decide⟩)
  reads := by
    rw [text_toList]
    exact Json.readChars_pretty hplain.plain (List.forall_mem_singleton.2 rfl)

theorem has_of_read {files : Tree} {p : Path} {config : Entries} (h : read files p = .ok config) :
    files.has p = true := by
  unfold read at h
  split at h
  · cases h
  · rename_i htext
    obtain ⟨bytes, hbytes, -⟩ := bind_eq_ok htext
    exact Tree.has_of_readBytes hbytes

theorem plain_of_read {files : Tree} {p : Path} {config : Entries} (h : read files p = .ok config) :
    PlainEntries config := by
  unfold read at h
  split at h
  · cases h
  · split at h
    · cases h
    · cases h
    · rename_i hread
      cases h
      exact Json.plainEntries_of_plain (Json.readChars_plain hread)
    · cases h

theorem plain_of_listed {p : Path} {config : Entries} {old : List Value} (hplain : PlainEntries config)
    (h : listed p config = .ok old) : ∀ v ∈ old, Plain v := by
  unfold listed at h
  split at h
  · cases h
    simp
  · rename_i hfield
    cases h
    obtain ⟨e, he, -, hvalue⟩ := Entries.mem_of_lookup? hfield
    have hlist := hplain.values e he
    rw [hvalue] at hlist
    cases hlist with
    | list h => exact h
  · cases h

theorem plain_completed {p : Path} {config : Entries} {old : List Value} (hplain : PlainEntries config)
    (h : listed p config = .ok old) (plugins : List String) : PlainEntries (completed config old plugins) := by
  refine hplain.insert _ (.list fun v hv => ?_)
  rcases List.mem_append.1 hv with hv | hv
  · exact plain_of_listed hplain h v hv
  · obtain ⟨plugin, -, rfl⟩ := List.mem_map.1 hv
    exact .scalar (.text plugin)

theorem listed_completed (p : Path) (config : Entries) (old : List Value) (plugins : List String) :
    listed p (completed config old plugins) = .ok (old ++ (missing old plugins).map .text) := by
  rw [listed, completed, Entries.field?, Entries.lookup?_insert, if_pos (by decide)]

/-- the entries of a fresh configuration -/
def freshEntries (plugins : List String) : Entries :=
  [(.text "$schema", .text schema),
    (.text "linter", .object [("enabled", .bool true), ("rules", .object [("recommended", .bool true)])]),
    (.text "plugins", .texts plugins)]

theorem freshConfig_eq (plugins : List String) : freshConfig plugins = .map (freshEntries plugins) := rfl

theorem plain_fresh (plugins : List String) : PlainEntries (freshEntries plugins) := by
  have hrules : Plain (.object [("recommended", .bool true)]) :=
    Json.plain_object (by decide) (by simpa using .scalar (.bool true))
  have hlinter : Plain (.object [("enabled", .bool true), ("rules", .object [("recommended", .bool true)])]) :=
    Json.plain_object (by decide) (by simpa using ⟨.scalar (.bool true), hrules⟩)
  have hconfig : Plain (freshConfig plugins) :=
    Json.plain_object (by simp) (by simpa using ⟨.scalar (.text schema), hlinter, Json.plain_texts plugins⟩)
  exact Json.plainEntries_of_plain hconfig

/-! ## The outcomes of a setup -/

/-- what a setup did, and the files after it -/
inductive Done (files : Tree) (p : Path) (plugins : List String) : Report → Tree → Prop
  | created {after : Tree} (absent : files.has p = false) (holds : Holds after p (freshEntries plugins)) :
      Done files p plugins ⟨p, true, plugins.length⟩ after
  | kept {config : Entries} {old : List Value} (reads : read files p = .ok config) (lists : listed p config = .ok old)
      (all : missing old plugins = []) : Done files p plugins ⟨p, false, 0⟩ files
  | appended {config : Entries} {old : List Value} {after : Tree} (reads : read files p = .ok config)
      (lists : listed p config = .ok old) (some : missing old plugins ≠ [])
      (holds : Holds after p (completed config old plugins)) :
      Done files p plugins ⟨p, false, (missing old plugins).length⟩ after

theorem create_done {files after : Tree} {p : Path} {plugins : List String} {report : Report} {log : List LogEntry}
    (habsent : files.has p = false) (h : create files p plugins = .ok (report, log, after)) :
    Done files p plugins report after := by
  obtain ⟨written, hwrite, h⟩ := bind_eq_ok h
  cases h
  rw [freshConfig_eq] at hwrite
  exact .created habsent (holds_of_write (plain_fresh plugins) hwrite)

theorem update_done {files after : Tree} {p : Path} {plugins : List String} {report : Report} {log : List LogEntry}
    (h : update files p plugins = .ok (report, log, after)) : Done files p plugins report after := by
  obtain ⟨config, hread, h⟩ := bind_eq_ok h
  obtain ⟨old, hlisted, h⟩ := bind_eq_ok h
  dsimp only at h
  split_ifs at h with hempty
  · cases h
    exact .kept hread hlisted (List.isEmpty_iff.1 hempty)
  · obtain ⟨written, hwrite, h⟩ := bind_eq_ok h
    cases h
    exact .appended hread hlisted (fun hnil => hempty (List.isEmpty_iff.2 hnil))
      (holds_of_write (plain_completed (plain_of_read hread) hlisted plugins) hwrite)

theorem setUp_done {files after : Tree} {dir : Path} {plugins : List String} {report : Report} {log : List LogEntry}
    (h : setUp files dir plugins = .ok (report, log, after)) :
    Done files (dir.append [fileName]) plugins report after := by
  unfold setUp at h
  dsimp only at h
  split_ifs at h with hhas
  · exact update_done h
  · exact create_done (by simpa using hhas) h

/-- a setup that finds all plugins in a configuration -/
theorem setUp_all {files : Tree} {dir : Path} {plugins : List String} {config : Entries} {old : List Value}
    (hread : read files (dir.append [fileName]) = .ok config)
    (hlisted : listed (dir.append [fileName]) config = .ok old) (hall : missing old plugins = []) :
    setUp files dir plugins = .ok (⟨dir.append [fileName], false, 0⟩, [], files) := by
  simp [setUp, has_of_read hread, update, hread, hlisted, hall, bind, Except.bind, pure, Except.pure]

/-- after a setup the configuration that is there lists all plugins -/
theorem Done.all {files after : Tree} {p : Path} {plugins : List String} {report : Report}
    (h : Done files p plugins report after) :
    ∃ config old, read after p = .ok config ∧ listed p config = .ok old ∧ missing old plugins = [] := by
  cases h with
  | created absent holds =>
    exact ⟨_, plugins.map .text, holds.read, rfl, missing_eq_nil_iff.2 fun _ => lists_texts⟩
  | kept reads lists all => exact ⟨_, _, reads, lists, all⟩
  | appended reads lists some holds =>
    exact ⟨_, _, holds.read, listed_completed _ _ _ _, missing_appended _ _⟩

/-- a directory without a configuration gets one -/
theorem setUp_absent {files : Tree} {dir : Path} (hdir : files.isDirectory dir = true)
    (habsent : files.has (dir.append [fileName]) = false) (plugins : List String) :
    ∃ report log after, setUp files dir plugins = .ok (report, log, after) := by
  obtain ⟨written, hwrite⟩ := Tree.writeBytes_beside hdir (by decide) habsent
    (Utf8.encode (text (freshConfig plugins)).toList)
  change files.writeText _ _ = _ at hwrite
  exact ⟨⟨dir.append [fileName], true, plugins.length⟩, [entry ("Created " ++ (dir.append [fileName]).text)], written,
    by simp [setUp, habsent, create, hwrite, bind, Except.bind, pure, Except.pure]⟩

/-- **A second setup changes nothing:** from a directory without a configuration, or from any configuration on which
the setup succeeds, what it writes is read as the configuration that was meant, and the same setup then finds all
plugins and leaves the files as they are, byte for byte. -/
theorem setUp_again (files : Tree) (dir : Path) (plugins : List String)
    (h : (files.isDirectory dir = true ∧ files.has (dir.append [fileName]) = false) ∨
      ∃ result, setUp files dir plugins = .ok result) :
    ∃ report log after, setUp files dir plugins = .ok (report, log, after) ∧
      Done files (dir.append [fileName]) plugins report after ∧
      ∃ again, setUp after dir plugins = .ok (again, [], after) ∧
        again.created = false ∧ again.added = 0 ∧ again.changed = false := by
  obtain ⟨report, log, after, hrun⟩ : ∃ report log after, setUp files dir plugins = .ok (report, log, after) := by
    rcases h with ⟨hdir, habsent⟩ | ⟨⟨report, log, after⟩, hrun⟩
    · exact setUp_absent hdir habsent plugins
    · exact ⟨report, log, after, hrun⟩
  have hdone := setUp_done hrun
  obtain ⟨config, old, hread, hlisted, hall⟩ := hdone.all
  exact ⟨report, log, after, hrun, hdone, _, setUp_all hread hlisted hall, rfl, rfl, rfl⟩

/-- a configuration with a name twice, with numbers that are not written as they are read, and with one plugin listed -/
def sampleText : String :=
  "\x7b\"width\": 1.50, \"plugins\": [7, \"./a.grit\"], \"width\": 2e3, \"name\": \"caf\\u00e9\"\x7d"

def sample : Tree := .dir [(fileName, .file (Utf8.encode sampleText.toList))]

theorem setUp_again_sample : (∃ result, setUp sample .here ["./a.grit", "./b.grit", "./b.grit"] = .ok result) ∧
    ∃ report log after, setUp sample .here ["./a.grit", "./b.grit", "./b.grit"] = .ok (report, log, after) ∧
      Done sample (Path.here.append [fileName]) ["./a.grit", "./b.grit", "./b.grit"] report after ∧
      ∃ again, setUp after .here ["./a.grit", "./b.grit", "./b.grit"] = .ok (again, [], after) ∧
        again.created = false ∧ again.added = 0 ∧ again.changed = false := by
  have hsome : (setUp sample .here ["./a.grit", "./b.grit", "./b.grit"]).toOption.isSome = true := by decide +kernel
  have hrun : ∃ result, setUp sample .here ["./a.grit", "./b.grit", "./b.grit"] = .ok result := by
    cases hresult : setUp sample .here ["./a.grit", "./b.grit", "./b.grit"] with
    | error fault => rw [hresult] at hsome; cases hsome
    | ok result => exact ⟨result, rfl⟩
  exact ⟨hrun, setUp_again sample .here _ (.inr hrun)⟩

end ClassNaming.Lint
