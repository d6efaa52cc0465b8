/-
Which layer decides a setting.

A layer is silent on a setting, states a value for it, or blanks the whole section by holding something there that is
no mapping. It sets the setting if it states a value other than null.

- `stated?_over`: what two layers state for a setting is what the upper one makes of what the lower one states.
- `get_readParts`: the settings that are read have, for each of them, the normal form of what is stated for it.
- `inherits_iff`: the loaded value is the normal form of what the highest layer that sets it states, exactly if no
  layer drowns that out with a blank section, a null or a mapping.
- `blank_loses`: a project file with a blank section, and one with a null, that take the user's value away.
-/
import ClassNaming.Proofs.Settings.Loading

namespace ClassNaming

namespace Manager.Setting

/-- the section of a setting -/
def part : Setting → String
  | .strictBem | .allowUnknown | .customUtilities => "rules"
  | .symbols | .format => "display"
  | .excludeDirs => "scan"

/-- the name of a setting in its section -/
def name : Setting → String
  | .strictBem => "strict_bem"
  | .allowUnknown => "allow_unknown"
  | .customUtilities => "custom_utilities"
  | .symbols => "symbols"
  | .format => "format"
  | .excludeDirs => "exclude_dirs"

end Manager.Setting

namespace Settings

open Manager (Setting)

/-- the value of a setting -/
def get (s : Settings) : Setting → Value
  | .strictBem => .bool s.strictBem
  | .allowUnknown => .bool s.allowUnknown
  | .customUtilities => .list s.customUtilities
  | .symbols => s.symbols
  | .format => s.format
  | .excludeDirs => .texts s.excludeDirs

deriving instance DecidableEq for Settings

/-! ## What layers state -/

/-- the value that entries state for a setting -/
def stated? (data : Entries) (k : Setting) : Option Value :=
  Entries.field? (partOf (Entries.field? data k.part)) k.name

/-- what a layer has to say about a setting -/
inductive Stance where
  /-- nothing: the section is not there, or it is a mapping without the setting -/
  | silent
  /-- what stands for the section is no mapping -/
  | blanks
  /-- the section is a mapping with the setting -/
  | states (v : Value)

def stance (layer : Entries) (k : Setting) : Stance :=
  match Entries.field? layer k.part with
  | none => .silent
  | some (.map es) =>
    match Entries.field? es k.name with
    | none => .silent
    | some v => .states v
  | some _ => .blanks

/-- what is stated for a setting after a layer, given what is stated below it -/
def Stance.over : Stance → Option Value → Option Value
  | .silent, below => below
  | .blanks, _ => none
  | .states v, below => some (Value.over below v)

/-- a name in a section that is a mapping and is laid over whatever stands below -/
theorem field?_partOf_over {us : Entries} (hd : us.Distinct) (lower : Option Value) (name : String) :
    Entries.field? (partOf (some (Value.over lower (.map us)))) name =
      Value.laid (Entries.field? (partOf lower) name) (Entries.field? us name) := by
  cases lower with
  | none =>
    rw [Value.over_none]
    exact (Value.laid_none_left _).symm
  | some w =>
    by_cases hw : w.IsMap
    · obtain ⟨ls, rfl⟩ := hw
      rw [Value.over_map_map]
      exact Entries.lookup?_over hd ls _
    · rw [Value.over_of_lower_not_isMap hw, partOf_of_not_isMap hw]
      exact (Value.laid_none_left _).symm

/-- one layer over another, setting by setting -/
theorem stated?_over {upper : Entries} (hu : Value.Keyed (.map upper)) (lower : Entries) (k : Setting) :
    stated? (Entries.over lower upper) k = (stance upper k).over (stated? lower k) := by
  have hsection : Entries.field? (Entries.over lower upper) k.part =
      Value.laid (Entries.field? lower k.part) (Entries.field? upper k.part) :=
    Entries.lookup?_over hu.distinct lower _
  unfold stated? stance
  rw [hsection]
  cases hup : Entries.field? upper k.part with
  | none => rfl
  | some v =>
    by_cases hv : v.IsMap
    · obtain ⟨us, rfl⟩ := hv
      rw [Value.laid_some, field?_partOf_over (hu.lookup? hup).distinct]
      dsimp only
      cases Entries.field? us k.name <;> rfl
    · rw [Value.laid_some, Value.over_of_not_isMap hv, partOf_of_not_isMap hv]
      cases v with
      | map es => exact absurd ⟨es, rfl⟩ hv
      | scalar s => rfl
      | list items => rfl
      | record name shown es => rfl

/-- what layers state for a setting, the highest layer first -/
def laidBy (k : Setting) (layers : List Entries) : Option Value :=
  layers.foldr (fun layer below => (stance layer k).over below) none

theorem stated?_eq_over (layer : Entries) (k : Setting) : stated? layer k = (stance layer k).over none := by
  unfold stated? stance
  cases Entries.field? layer k.part with
  | none => rfl
  | some v =>
    cases v with
    | map es =>
      dsimp only [partOf]
      cases Entries.field? es k.name <;> simp [Stance.over]
    | scalar s => rfl
    | list items => rfl
    | record name shown es => rfl

theorem stated?_stacked {env : Environment} {user project : Entries} (hu : Value.Keyed (.map user))
    (hp : Value.Keyed (.map project)) (k : Setting) :
    stated? (stacked env user project) k = laidBy k [project, user, (envLayer env).1] := by
  unfold stacked
  rw [stated?_over hp, stated?_over hu, stated?_eq_over (envLayer env).1]
  rfl

/-! ## Normal forms -/

/-- entries that state a value for one setting and nothing else -/
def alone (k : Setting) : Option Value → Entries
  | none => []
  | some v => [(.text k.part, .map [(.text k.name, v)])]

/-- the value that a setting has if this is all that is stated: a flag, a list or a list of texts, the default for
something else -/
def normal (k : Setting) (v? : Option Value) : Value :=
  ((ofEntries (alone k v?)).1.toOption.getD {}).get k

theorem usable_alone (k : Setting) (v? : Option Value) (part : String) : Usable (Entries.field? (alone k v?) part) := by
  intro v hv
  cases v? with
  | none => simp [alone, Entries.field?, Entries.lookup?] at hv
  | some w =>
    simp only [alone, Entries.field?, Entries.lookup?] at hv
    split_ifs at hv
    exact Or.inl ⟨_, (Option.some.inj hv).symm⟩

theorem normal_eq (k : Setting) (v? : Option Value) : normal k v? = (readParts (alone k v?)).get k := by
  have hok := (ofEntries_ok_iff (alone k v?) _).2 ⟨fun part _ => usable_alone k v? part, rfl⟩
  simp [normal, hok, Except.toOption]

theorem stated?_alone (k : Setting) (v? : Option Value) : stated? (alone k v?) k = v? := by
  cases v? <;> simp [stated?, alone, partOf, Entries.field?, Entries.lookup?, Scalar.sameKey]

/-- a setting is read from what is stated for it -/
theorem get_readParts_congr {data other : Entries} {k : Setting} (h : stated? data k = stated? other k) :
    (readParts data).get k = (readParts other).get k := by
  cases k <;> simp only [stated?, Manager.Setting.part, Manager.Setting.name] at h <;>
    simp only [readParts, ofSections, get, flagOf, listOf, Entries.fieldOrNull, h]

theorem get_readParts (data : Entries) (k : Setting) : (readParts data).get k = normal k (stated? data k) := by
  rw [normal_eq]
  exact get_readParts_congr (stated?_alone k _).symm

/-- the display settings hold whatever is stated for them -/
theorem normal_display {k : Setting} (hk : k.part = "display") (v? : Option Value) :
    normal k v? = v?.getD (.text "auto") := by
  rw [normal_eq]
  have hstated := stated?_alone k v?
  cases k <;> simp only [Manager.Setting.part, String.reduceEq] at hk <;>
    exact congrArg (Option.getD · (.text "auto")) hstated

/-- a mapping is neither a flag nor a list -/
theorem normal_isMap {k : Setting} (hk : k.part ≠ "display") {v : Value} (hv : v.IsMap) :
    normal k (some v) = normal k none := by
  obtain ⟨es, rfl⟩ := hv
  cases k <;> first | rfl | exact absurd rfl hk

/-- what shines through a mapping from below matters to the display settings only -/
theorem normal_over_iff (k : Setting) (below : Option Value) (v : Value) :
    normal k (some (Value.over below v)) = normal k (some v) ↔ (k.part = "display" → Value.over below v = v) := by
  by_cases hk : k.part = "display"
  · simp [normal_display hk, hk]
  · by_cases hv : v.IsMap
    · rw [normal_isMap hk hv, normal_isMap hk ((Value.isMap_over _).2 hv)]
      simp [hk]
    · simp [Value.over_of_not_isMap hv]

/-! ## Inheritance -/

/-- the value to which a layer sets a setting: what it states, if that is not null -/
def Stance.set? : Stance → Option Value
  | .states .null => none
  | .states v => some v
  | _ => none

theorem Stance.set?_states {v : Value} (h : v ≠ .null) : (Stance.states v).set? = some v := by
  unfold Stance.set?
  split
  · rename_i heq
    exact absurd (Stance.states.inj heq) h
  · rename_i heq
    rw [Stance.states.inj heq]
  · rename_i hne
    exact absurd rfl (hne v)

/-- the value that a setting should have: of the highest layer that sets it, or the default -/
def inherited (k : Setting) (layers : List Entries) : Value :=
  normal k (layers.findSome? fun layer => (stance layer k).set?)

/-- no layer drowns out what those below it hand on. A layer that blanks a setting or states null for it does, unless
they come to the same anyway; one that sets it is heard itself, except that the display settings hold mappings too,
through which a mapping below can shine. -/
def Heard (k : Setting) : List Entries → Prop
  | [] => True
  | layer :: below =>
    match stance layer k with
    | .silent => Heard k below
    | .blanks => inherited k below = normal k none
    | .states v =>
      if v = .null then inherited k below = normal k (some .null)
      else k.part = "display" → Value.over (laidBy k below) v = v

theorem inherited_cons (k : Setting) (layer : Entries) (below : List Entries) :
    inherited k (layer :: below) =
      match (stance layer k).set? with
      | some v => normal k (some v)
      | none => inherited k below := by
  simp only [inherited, List.findSome?_cons]
  cases (stance layer k).set? <;> rfl

/-- what is laid together is what should be inherited exactly if every layer is heard -/
theorem normal_laidBy_iff (k : Setting) (layers : List Entries) :
    normal k (laidBy k layers) = inherited k layers ↔ Heard k layers := by
  induction layers with
  | nil => exact iff_of_true rfl trivial
  | cons layer below ih =>
    have hlaid : laidBy k (layer :: below) = (stance layer k).over (laidBy k below) := rfl
    rw [hlaid, inherited_cons, Heard]
    cases stance layer k with
    | silent => exact ih
    | blanks => exact eq_comm
    | states v =>
      by_cases hv : v = .null
      · subst hv
        simp only [Stance.over, Stance.set?, if_true]
        rw [Value.over_of_not_isMap (v := .null) (by simp [Value.IsMap])]
        exact eq_comm
      · simp only [Stance.over, Stance.set?_states hv, hv, if_false]
        exact normal_over_iff k _ v

end Settings

namespace Manager

open Settings

/-- the layers of a manager, the highest first -/
def layersIn [Codec] (m : Manager) (files : Tree) : List Entries :=
  [entriesAt files m.projectFile, entriesAt files m.userFile, (envLayer m.env).1]

/-- what is read for a setting is the normal form of what the layers state -/
theorem get_of_read [Codec] [LawfulCodec] {m : Manager} {files : Tree} {s : Settings}
    (h : (m.read files).1 = .ok s) (k : Setting) : s.get k = normal k (laidBy k (m.layersIn files)) := by
  obtain ⟨user, project, hu, hp, hs⟩ := (read_ok_iff m.env files m.userFile m.projectFile s).1 h
  obtain ⟨-, rfl⟩ := (ofEntries_ok_iff _ s).1 hs
  rw [get_readParts, stated?_stacked (layerAt_keyed hu) (layerAt_keyed hp), layersIn, entriesAt_of_layerAt hu,
    entriesAt_of_layerAt hp]

/-- **Inheritance.** Loaded settings have for each of them the normal form of what the layers state together. That is
the value of the highest layer that sets it, or the default, exactly if every layer is heard: if none that blanks its
section or states null for it lies over one that sets it to something else, and no mapping for a display setting over
another. -/
theorem inherits_iff [Codec] [LawfulCodec] (m : Manager) (files : Tree) (s : Settings)
    (h : (m.fresh.load files).1 = .ok s) (k : Setting) :
    s.get k = normal k (laidBy k (m.layersIn files)) ∧
      (s.get k = inherited k (m.layersIn files) ↔ Heard k (m.layersIn files)) := by
  rw [fresh_load_fst] at h
  have hget := get_of_read h k
  refine ⟨hget, ?_⟩
  rw [hget]
  exact normal_laidBy_iff k _

/-! ## Layers of a sample project -/

/-- a project like the sample, in an environment that asks for strict rules -/
def strictSample : Manager := create ⟨[("HCNC_STRICT_BEM", "true")]⟩ (.ofText "home") .here

/-- strict rules of the user, and a project file with display settings only -/
def strictFiles : Tree := bothOf "rules:\n  strict_bem: true\n" "display:\n  symbols: ascii\n"

/-- a project file that is silent on the rules leaves those of the user alone -/
theorem inherits_iff_strict :
    (sample.fresh.load strictFiles).1.toOption = some { strictBem := true, symbols := .text "ascii" } ∧
      inherited .strictBem (sample.layersIn strictFiles) = .bool true := by
  have hload : (sample.fresh.load strictFiles).1.toOption = some { strictBem := true, symbols := .text "ascii" } := by
    decide +kernel
  have hlayers : sample.layersIn strictFiles = [[(.text "display", .map [(.text "symbols", .text "ascii")])],
      [(.text "rules", .map [(.text "strict_bem", .bool true)])], []] := by
    decide +kernel
  have hget := (inherits_iff sample strictFiles _ (ok_of_toOption hload) .strictBem).2.2
  rw [hlayers] at hget ⊢
  exact ⟨hload, (hget fun hpart => absurd hpart (by decide)).symm⟩

/-- **Two project files that set nothing and take a value away:** one with a blank section over the user's file, one
with a null over the environment. -/
theorem blank_loses :
    ((sample.fresh.load (bothOf "rules:\n  strict_bem: true\n" "rules:\n")).1.toOption.map (·.get .strictBem) =
        some (.bool false) ∧
      inherited .strictBem (sample.layersIn (bothOf "rules:\n  strict_bem: true\n" "rules:\n")) = .bool true) ∧
    ((strictSample.fresh.load (bothOf "" "rules:\n  strict_bem:\n")).1.toOption.map (·.get .strictBem) =
        some (.bool false) ∧
      inherited .strictBem (strictSample.layersIn (bothOf "" "rules:\n  strict_bem:\n")) = .bool true) := by
  decide +kernel

end Manager

end ClassNaming
