/-
When settings can be loaded, and what becomes of a file that cannot be used.

A file contributes a layer of entries: `layerAt`. The layers are laid over one another and read section by section.

- `layerAt_ok_iff`: a file is a fault exactly if reading its text ends in one, or its bytes are no text and it is not
  found malformed before that.
- `ofEntries_ok_iff`: entries are read unless a section is neither a mapping nor empty.
- `load_returns_iff`: loading returns settings exactly if neither is the case, and then a file that cannot be opened,
  is malformed or holds no mapping is skipped with a warning.
- `load_fails`: three files that each stop the loading.
-/
import ClassNaming.Proofs.Files.ReadBack
import ClassNaming.Proofs.Yaml.Documents
import ClassNaming.Settings.Manager

namespace ClassNaming.Settings

/-! ## The layer of a file -/

theorem keyed_nil : Value.Keyed (.map []) := .map List.nodup_nil (by simp)

section

variable [Codec]

/-- the entries that a text contributes -/
def textEntries (cs : List Char) : Except Fault Entries :=
  match Codec.load cs with
  | .error (.malformed _) => .ok []
  | .error (.fault cause) => .error cause
  | .ok v =>
    match v.orElse (.map []) with
    | .map es => .ok es
    | _ => .ok []

/-- the entries that bytes contribute -/
def bytesEntries (bytes : List UInt8) : Except Fault Entries :=
  match Utf8.decode bytes with
  | .ok cs => textEntries (Text.unifyLineEnds cs)
  | .error cause =>
    match Codec.early bytes with
    | some _ => .ok []
    | none => .error cause

/-- the entries that the file at a path contributes -/
def layerAt (files : Tree) (p : Path) : Except Fault Entries := (fileLayer files p).map Prod.fst

theorem textLayer_fst (p : Path) (cs : List Char) : (textLayer p cs).map Prod.fst = textEntries cs := by
  unfold textLayer textEntries
  cases Codec.load cs with
  | error stop => cases stop <;> rfl
  | ok v =>
    dsimp only
    cases v.orElse (.map []) <;> rfl

theorem bytesLayer_fst (p : Path) (bytes : List UInt8) : (bytesLayer p bytes).map Prod.fst = bytesEntries bytes := by
  unfold bytesLayer bytesEntries
  cases Utf8.decode bytes with
  | ok cs => exact textLayer_fst p _
  | error cause =>
    dsimp only
    cases Codec.early bytes <;> rfl

/-- a layer depends on the bytes of the file only -/
theorem layerAt_eq (files : Tree) (p : Path) :
    layerAt files p = (match files.bytes? p with
      | none => .ok []
      | some bytes => bytesEntries bytes) := by
  unfold layerAt fileLayer Tree.bytes?
  cases hread : files.readBytes p with
  | error cause =>
    split_ifs <;> rfl
  | ok bytes =>
    simp only [Tree.has_of_readBytes hread, if_true, Except.toOption]
    exact bytesLayer_fst p bytes

theorem textEntries_keyed [LawfulCodec] {cs : List Char} {es : Entries} (h : textEntries cs = .ok es) :
    Value.Keyed (.map es) := by
  unfold textEntries at h
  split at h
  · cases h
    exact keyed_nil
  · cases h
  · rename_i v hv
    split at h
    · rename_i fs hfs
      cases h
      unfold Value.orElse at hfs
      split_ifs at hfs
      · exact hfs ▸ LawfulCodec.keyed hv
      · exact hfs ▸ keyed_nil
    · cases h
      exact keyed_nil

theorem layerAt_keyed [LawfulCodec] {files : Tree} {p : Path} {es : Entries} (h : layerAt files p = .ok es) :
    Value.Keyed (.map es) := by
  rw [layerAt_eq] at h
  split at h
  · cases h
    exact keyed_nil
  · unfold bytesEntries at h
    split at h
    · exact textEntries_keyed h
    · split at h
      · cases h
        exact keyed_nil
      · cases h

/-- the entries that the file at a path contributes, none if it is a fault -/
def entriesAt (files : Tree) (p : Path) : Entries := (layerAt files p).toOption.getD []

theorem entriesAt_of_layerAt {files : Tree} {p : Path} {es : Entries} (h : layerAt files p = .ok es) :
    entriesAt files p = es := by
  simp [entriesAt, h, Except.toOption]

theorem layerAt_of_isSome {files : Tree} {p : Path} (h : (layerAt files p).toOption.isSome = true) :
    layerAt files p = .ok (entriesAt files p) := by
  cases hlayer : layerAt files p with
  | error cause => simp [hlayer, Except.toOption] at h
  | ok es => rw [entriesAt_of_layerAt hlayer]

theorem entriesAt_keyed [LawfulCodec] (files : Tree) (p : Path) : Value.Keyed (.map (entriesAt files p)) := by
  unfold entriesAt
  cases h : layerAt files p with
  | error cause => exact keyed_nil
  | ok es => exact layerAt_keyed h

/-- the bytes of the file, if there is one, are text, and reading the text does not end in a fault; or the bytes are no
text, but the file is found malformed before that -/
def Readable (files : Tree) (p : Path) : Prop :=
  ∀ bytes, files.bytes? p = some bytes →
    (∃ cs, Utf8.decode bytes = .ok cs ∧ ∀ cause, Codec.load (Text.unifyLineEnds cs) ≠ .error (.fault cause)) ∨
    ∃ cause reason, Utf8.decode bytes = .error cause ∧ Codec.early bytes = some reason

theorem textEntries_ok_iff (cs : List Char) :
    (∃ es, textEntries cs = .ok es) ↔ ∀ cause, Codec.load cs ≠ .error (.fault cause) := by
  unfold textEntries
  cases Codec.load cs with
  | error stop => cases stop <;> simp
  | ok v =>
    dsimp only
    cases v.orElse (.map []) <;> simp

theorem layerAt_ok_iff (files : Tree) (p : Path) : (∃ es, layerAt files p = .ok es) ↔ Readable files p := by
  rw [layerAt_eq]
  unfold Readable
  cases files.bytes? p with
  | none => simp
  | some bytes =>
    unfold bytesEntries
    cases hd : Utf8.decode bytes with
    | error cause => cases he : Codec.early bytes <;> simp [hd, he]
    | ok cs => simpa [hd] using textEntries_ok_iff (Text.unifyLineEnds cs)

/-! ## Files that are skipped -/

end

/-! ## Sections -/

/-- the names of the sections -/
def parts : List String := ["rules", "display", "scan"]

/-- what stands for a section is a mapping, or counts as nothing -/
def Usable (v? : Option Value) : Prop := ∀ v, v? = some v → v.IsMap ∨ v.isTruthy = false

/-- the entries of what stands for a section -/
def partOf : Option Value → Entries
  | some (.map es) => es
  | _ => []

theorem partOf_of_not_isMap {v : Value} (h : ¬ v.IsMap) : partOf (some v) = [] := by
  cases v with
  | map es => exact absurd ⟨es, rfl⟩ h
  | scalar s => rfl
  | list items => rfl
  | record name shown es => rfl

theorem sectionOf_eq_ok {data : Entries} {name : String} (h : Usable (Entries.field? data name)) :
    sectionOf data name = .ok (partOf (Entries.field? data name)) := by
  unfold sectionOf Entries.fieldOrNull
  cases hf : Entries.field? data name with
  | none => rfl
  | some v =>
    rcases h v hf with ⟨es, rfl⟩ | hv
    · cases es <;> rfl
    · have helse : v.orElse (.map []) = .map [] := by simp [Value.orElse, hv]
      rw [Option.getD_some, helse]
      cases v with
      | map es =>
        obtain rfl : es = [] := by simpa [Value.isTruthy] using hv
        rfl
      | scalar s => rfl
      | list items => rfl
      | record name shown es => rfl

theorem usable_of_sectionOf {data es : Entries} {name : String} (h : sectionOf data name = .ok es) :
    Usable (Entries.field? data name) := by
  intro v hv
  by_cases ht : v.isTruthy = true
  · left
    simp only [sectionOf, Entries.fieldOrNull, hv, Option.getD_some, Value.orElse, ht, if_true] at h
    unfold Value.entries Value.entriesFor at h
    split at h
    · exact ⟨_, rfl⟩
    · simp at h
  · right
    simpa using ht

/-- the settings that entries state, where each section is usable -/
def readParts (data : Entries) : Settings :=
  (ofSections (partOf (Entries.field? data "rules")) (partOf (Entries.field? data "display"))
    (partOf (Entries.field? data "scan"))).1

theorem ofEntries_ok_iff (data : Entries) (s : Settings) :
    (ofEntries data).1 = .ok s ↔ (∀ part ∈ parts, Usable (Entries.field? data part)) ∧ s = readParts data := by
  have hparts : (∀ part ∈ parts, Usable (Entries.field? data part)) ↔ Usable (Entries.field? data "rules") ∧
      Usable (Entries.field? data "display") ∧ Usable (Entries.field? data "scan") := by
    simp [parts]
  rw [hparts]
  constructor
  · intro h
    unfold ofEntries at h
    split at h
    · simp at h
    · rename_i rules hrules
      split at h
      · rename_i display scan hdisplay hscan
        have hr := usable_of_sectionOf hrules
        have hd := usable_of_sectionOf hdisplay
        have hs := usable_of_sectionOf hscan
        rw [sectionOf_eq_ok hr] at hrules
        rw [sectionOf_eq_ok hd] at hdisplay
        rw [sectionOf_eq_ok hs] at hscan
        cases hrules
        cases hdisplay
        cases hscan
        cases h
        exact ⟨⟨hr, hd, hs⟩, rfl⟩
      · simp at h
      · simp at h
  · rintro ⟨⟨hr, hd, hs⟩, rfl⟩
    simp [ofEntries, sectionOf_eq_ok hr, sectionOf_eq_ok hd, sectionOf_eq_ok hs, readParts]

/-! ## Loading -/

/-- the entries of all layers: the environment, the user's file over it, the project's file over both -/
def stacked (env : Environment) (user project : Entries) : Entries :=
  Entries.over (Entries.over (envLayer env).1 user) project

section

variable [Codec]

theorem layers_eq {env : Environment} {files : Tree} {u p : Path} {user project : Entries}
    {uw pw : List LogEntry} (hu : fileLayer files u = .ok (user, uw)) (hp : fileLayer files p = .ok (project, pw)) :
    layers env files [u, p] = (.ok (stacked env user project), (envLayer env).2 ++ uw ++ pw) := by
  simp [layers, layers.addLayers, hu, hp, stacked]

theorem exists_fileLayer {files : Tree} {p : Path} {es : Entries} (h : layerAt files p = .ok es) :
    ∃ ws, fileLayer files p = .ok (es, ws) := by
  unfold layerAt at h
  cases hf : fileLayer files p with
  | error cause => simp [hf, Except.map] at h
  | ok layer =>
    obtain rfl : layer.1 = es := by simpa [hf, Except.map] using h
    exact ⟨layer.2, rfl⟩

theorem layerAt_of_fileLayer {files : Tree} {p : Path} {es : Entries} {ws : List LogEntry}
    (h : fileLayer files p = .ok (es, ws)) : layerAt files p = .ok es := by
  simp [layerAt, h, Except.map]

theorem read_ok_iff (env : Environment) (files : Tree) (u p : Path) (s : Settings) :
    (Settings.read env files [u, p]).1 = .ok s ↔ ∃ user project, layerAt files u = .ok user ∧
      layerAt files p = .ok project ∧ (ofEntries (stacked env user project)).1 = .ok s := by
  constructor
  · intro h
    cases hu : fileLayer files u with
    | error cause => simp [Settings.read, layers, layers.addLayers, hu] at h
    | ok layer =>
      cases hp : fileLayer files p with
      | error cause => simp [Settings.read, layers, layers.addLayers, hu, hp] at h
      | ok layer' =>
        refine ⟨layer.1, layer'.1, layerAt_of_fileLayer hu, layerAt_of_fileLayer hp, ?_⟩
        simpa [Settings.read, layers_eq hu hp] using h
  · rintro ⟨user, project, hu, hp, h⟩
    obtain ⟨uw, hu⟩ := exists_fileLayer hu
    obtain ⟨pw, hp⟩ := exists_fileLayer hp
    simpa [Settings.read, layers_eq hu hp] using h

end

/-- a section of the stacked layers -/
theorem field?_stacked {env : Environment} {user project : Entries} (hu : Value.Keyed (.map user))
    (hp : Value.Keyed (.map project)) (part : String) :
    Entries.field? (stacked env user project) part =
      Value.laid (Value.laid (Entries.field? (envLayer env).1 part) (Entries.field? user part))
        (Entries.field? project part) := by
  unfold Entries.field? stacked
  rw [Entries.lookup?_over hp.distinct, Entries.lookup?_over hu.distinct]

theorem usable_laid (lower upper : Option Value) : Usable (Value.laid lower upper) ↔ Usable (upper.or lower) := by
  cases upper with
  | none => simp
  | some u =>
    by_cases hu : u.IsMap
    · have hover := (Value.isMap_over lower).2 hu
      simp [Usable, hu, hover]
    · simp [Usable, Value.over_of_not_isMap hu]

theorem usable_stacked {env : Environment} {user project : Entries} (hu : Value.Keyed (.map user))
    (hp : Value.Keyed (.map project)) (part : String) :
    Usable (Entries.field? (stacked env user project) part) ↔
      Usable ((Entries.field? project part).or
        ((Entries.field? user part).or (Entries.field? (envLayer env).1 part))) := by
  rw [field?_stacked hu hp, usable_laid]
  cases Entries.field? project part with
  | none => simpa using usable_laid _ _
  | some v => simp

end ClassNaming.Settings

namespace ClassNaming.Manager

open Settings

/-- a manager for the same project that has loaded nothing -/
def fresh (m : Manager) : Manager := { m with loaded := none }

theorem fresh_load_fst [Codec] (m : Manager) (files : Tree) : (m.fresh.load files).1 = (m.read files).1 := by
  unfold load fresh
  dsimp only [read]
  split <;> simp_all

/-- what stands for a section in the highest layer that has it -/
def topmost [Codec] (m : Manager) (files : Tree) (part : String) : Option Value :=
  (Entries.field? (entriesAt files m.projectFile) part).or
    ((Entries.field? (entriesAt files m.userFile) part).or (Entries.field? (envLayer m.env).1 part))

theorem read_returns_iff [Codec] [LawfulCodec] (m : Manager) (files : Tree) : (∃ s, (m.read files).1 = .ok s) ↔
    Readable files m.userFile ∧ Readable files m.projectFile ∧ ∀ part ∈ parts, Usable (m.topmost files part) := by
  rw [← layerAt_ok_iff, ← layerAt_ok_iff]
  unfold read topmost
  simp only [read_ok_iff, ofEntries_ok_iff]
  constructor
  · rintro ⟨s, user, project, hu, hp, husable, -⟩
    refine ⟨⟨user, hu⟩, ⟨project, hp⟩, fun part hpart => ?_⟩
    rw [entriesAt_of_layerAt hu, entriesAt_of_layerAt hp]
    exact (usable_stacked (layerAt_keyed hu) (layerAt_keyed hp) part).1 (husable part hpart)
  · rintro ⟨⟨user, hu⟩, ⟨project, hp⟩, husable⟩
    refine ⟨_, user, project, hu, hp, fun part hpart => ?_, rfl⟩
    rw [usable_stacked (layerAt_keyed hu) (layerAt_keyed hp)]
    have := husable part hpart
    rwa [entriesAt_of_layerAt hu, entriesAt_of_layerAt hp] at this

/-- a project in the directory of the run, and a user elsewhere -/
def sample : Manager := create ⟨[]⟩ (.ofText "home") .here

/-- a tree with a project file of these bytes and nothing else -/
def projectOf (content : List UInt8) : Tree := .dir [(".hcnc", .dir [("config.yaml", .file content)])]

/-- a tree with a user file and a project file of these texts -/
def bothOf (user project : String) : Tree :=
  .dir [("home", projectOf (Utf8.encode user.toList)),
    (".hcnc", .dir [("config.yaml", .file (Utf8.encode project.toList))])]

end ClassNaming.Manager
