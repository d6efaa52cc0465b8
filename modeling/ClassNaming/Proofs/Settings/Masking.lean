/-
What a new manager loads after settings have been saved to the project's file.

The document of the settings has every section and states every setting, so that it lies over whatever the environment
and the user's file hold. Only a mapping lets something below it shine through, and only a display setting can be one.

- `load_saved`: each setting is loaded as it was saved, laid over what the user's file states for it.
- `mapping_mixed`: symbols that are a mapping, and are mixed with those of the user's file.
-/
import ClassNaming.Proofs.Settings.Coherence

namespace ClassNaming

open Value (Alike Same)

/-- what looks alike is laid over a value with the same outcome -/
theorem Value.Same.over {v w : Value} (h : Same v w) (hv : v.Keyed) (hw : w.Keyed) (below : Option Value) :
    Same (Value.over below v) (Value.over below w) := by
  intro path
  induction path generalizing v w below with
  | nil =>
    by_cases hm : v.IsMap
    · obtain ⟨es, hes⟩ := (isMap_over below).2 hm
      obtain ⟨fs, hfs⟩ := (isMap_over below).2 (h.isMap_iff.1 hm)
      rw [hes, hfs]
      rfl
    · rw [over_of_not_isMap hm, over_of_not_isMap fun hw => hm (h.isMap_iff.2 hw)]
      exact h []
  | cons step path ih =>
    by_cases hm : v.IsMap
    swap
    · rw [over_of_not_isMap hm, over_of_not_isMap fun hw => hm (h.isMap_iff.2 hw)]
      exact h _
    obtain ⟨ws, rfl⟩ := h.isMap_iff.1 hm
    obtain ⟨vs, rfl⟩ := hm
    cases below with
    | none =>
      rw [over_none, over_none]
      exact h _
    | some l =>
      by_cases hl : l.IsMap
      swap
      · rw [over_of_lower_not_isMap hl, over_of_lower_not_isMap hl]
        exact h _
      obtain ⟨ls, rfl⟩ := hl
      cases step with
      | item i => simp [shapeAt]
      | entry key =>
        have hvs : Entries.Distinct vs := hv.distinct
        have hws : Entries.Distinct ws := hw.distinct
        have halike := Same.lookup? h key
        simp only [over_map_map, shapeAt, Option.bind_some]
        rw [Entries.lookup?_over hvs, Entries.lookup?_over hws]
        cases hk : Entries.lookup? ws key with
        | none =>
          rw [hk] at halike
          rw [halike.eq_none]
        | some w' =>
          rw [hk] at halike
          obtain ⟨v', hv', hsame⟩ := halike.exists_some
          rw [hv', laid_some, laid_some]
          exact ih hsame (hv.lookup? hv') (hw.lookup? hk) _

namespace Settings

open Manager (Setting)

/-- flags and lists are no mappings -/
theorem get_not_isMap (s : Settings) {k : Setting} (hk : k.part ≠ "display") : ¬ (s.get k).IsMap := by
  rintro ⟨es, hes⟩
  cases k <;> first | cases hes | exact hk rfl

/-- display settings that are read from a keyed mapping are keyed -/
theorem get_keyed {data : Entries} {c : Settings} (hdata : Value.Keyed (.map data)) (hc : (ofEntries data).1 = .ok c)
    {k : Setting} (hk : k.part = "display") : (c.get k).Keyed := by
  obtain ⟨-, rfl⟩ := (ofEntries_ok_iff data c).1 hc
  rw [get_readParts, normal_display hk]
  cases hstated : stated? data k with
  | none => exact .scalar _
  | some v => exact stance_keyed hdata (stance_of_stated? hstated)

end Settings

namespace Manager

open Settings

/-- the file of the user and a project file that states every setting are all that it takes to load settings -/
theorem load_of_states [Codec] [LawfulCodec] {m : Manager} {files : Tree} {user es : Entries}
    (huser : layerAt files m.userFile = .ok user)
    (hes : layerAt files m.projectFile = .ok es) (hstates : ∀ k, ∃ v, stance es k = .states v) :
    ∃ t, (m.fresh.load files).1 = .ok t ∧ ∀ k, t.get k = normal k (laidBy k [es, user, (envLayer m.env).1]) := by
  have hreturns : ∃ t, (m.read files).1 = .ok t := by
    rw [read_returns_iff]
    refine ⟨(layerAt_ok_iff _ _).1 ⟨user, huser⟩, (layerAt_ok_iff _ _).1 ⟨es, hes⟩, fun part hpart => ?_⟩
    obtain ⟨fs, hfs⟩ := exists_section hstates hpart
    rw [topmost, entriesAt_of_layerAt hes, hfs]
    exact usable_map fs
  obtain ⟨t, ht⟩ := hreturns
  refine ⟨t, by rw [fresh_load_fst, ht], fun k => ?_⟩
  rw [get_of_read ht, layersIn, entriesAt_of_layerAt hes, entriesAt_of_layerAt huser]

/-- a setting that the highest layer states like `c` has it is that of `c`, laid over what the user's file states -/
theorem normal_masked {env : Environment} {c : Settings} {user es : Entries} {k : Setting} {v : Value}
    (hv : stance es k = .states v) (hsame : v.Same (c.get k)) (hes : Value.Keyed (.map es))
    (hkeyed : k.part = "display" → (c.get k).Keyed) :
    (normal k (laidBy k [es, user, (envLayer env).1])).Same (Value.over (stated? user k) (c.get k)) := by
  have hlaid : laidBy k [es, user, (envLayer env).1] =
      some (Value.over (laidBy k [user, (envLayer env).1]) v) := congrArg (Stance.over · _) hv
  rw [hlaid]
  by_cases hk : k.part = "display"
  · have hbelow : laidBy k [user, (envLayer env).1] = stated? user k := by
      rw [stated?_eq_over, ← laidBy_envLayer env hk]
      rfl
    rw [normal_display hk, Option.getD_some, hbelow]
    exact hsame.over (stance_keyed hes hv) (hkeyed hk) _
  · rw [(normal_over_iff k _ v).2 fun h => absurd h hk, Value.over_of_not_isMap (c.get_not_isMap hk)]
    exact normal_of_same hsame

/-- **Saved settings mask the layers below.** Let settings `c` be read from a mapping and saved to the project's file,
in any environment and with any user file that can be read, by a writer whose document can be read back. Then a new
manager for the project loads, and each setting it loads is that of `c` laid over what the user's file states for it.
So it is that of `c` unless both are mappings. -/
theorem load_saved [Codec] [LawfulCodec] (m m' : Manager) (files written : Tree) (data user : Entries) (c : Settings)
    (h : m.Apart) (hdata : Value.Keyed (.map data)) (hc : (ofEntries data).1 = .ok c)
    (huser : layerAt files m.userFile = .ok user) (hsave : m.save files .project c = (.ok (), m', written))
    (hkept : Codec.Kept c.value) :
    ∃ t, (m.fresh.load written).1 = .ok t ∧ (∀ k, (t.get k).Same (Value.over (stated? user k) (c.get k))) ∧
      ∀ k, ((c.get k).IsMap → ∀ v ∈ stated? user k, ¬ v.IsMap) → (t.get k).Same (c.get k) := by
  obtain ⟨left, hwrite⟩ : ∃ left, write files m.projectFile c = (.ok written, left) := by
    unfold save at hsave
    split at hsave
    · cases hsave
    · rename_i out left hout
      cases hsave
      exact ⟨left, hout⟩
  have hown := bytes?_write h.project h.project hwrite
  have hother := bytes?_write h.project h.user hwrite
  rw [if_pos rfl] at hown
  rw [if_neg (show m.userFile.parts ≠ m.projectFile.parts from parts_other_ne h .project)] at hother
  obtain ⟨es, hes, hstates⟩ := layerAt_document hkept hown
  have huser' : layerAt written m.userFile = .ok user := (layerAt_congr hother).trans huser
  obtain ⟨t, ht, hget⟩ := load_of_states huser' hes fun k => (hstates k).imp fun _ hv => hv.1
  have hmasked : ∀ k, (t.get k).Same (Value.over (stated? user k) (c.get k)) := by
    intro k
    obtain ⟨v, hv, hsame⟩ := hstates k
    rw [hget]
    exact normal_masked hv hsame (layerAt_keyed hes) (get_keyed hdata hc)
  refine ⟨t, ht, hmasked, fun k hk => ?_⟩
  have hover : Value.over (stated? user k) (c.get k) = c.get k := by
    by_cases hmap : (c.get k).IsMap
    · cases hstated : stated? user k with
      | none => exact Value.over_none _
      | some v => exact Value.over_of_lower_not_isMap (hk hmap v hstated) _
    · exact Value.over_of_not_isMap hmap _
  exact hover ▸ hmasked k

/-! ## Settings saved in sample projects -/

/-- a user file that has something to say on every section -/
def busyFiles : Tree :=
  bothOf "rules:\n  strict_bem: true\ndisplay:\n  symbols: unicode\n  format: list\nscan: none\n" ""

/-- entries that name symbols and nothing else -/
def symbolsData (v : Value) : Entries := [(.text "display", .object [("symbols", v)])]

/-- the settings of these entries -/
def symbolsOnly (v : Value) : Settings := { symbols := v }

/-- the files after these settings have been saved to the project's file -/
def savedFiles (files : Tree) (v : Value) : Tree := (strictSample.save files .project (symbolsOnly v)).2.2

theorem keyed_symbolsData {v : Value} (hv : v.Keyed) : Value.Keyed (.map (symbolsData v)) := by
  have hpart : (Value.object [("symbols", v)]).Keyed := Value.keyed_object (List.nodup_singleton _) (by simpa using hv)
  have hall : (Value.object [("display", .object [("symbols", v)])]).Keyed :=
    Value.keyed_object (List.nodup_singleton _) (by simpa using hpart)
  exact hall

theorem keyed_symbolsOnly {v : Value} (hv : v.Keyed) : (symbolsOnly v).value.Keyed := by
  refine keyed_value fun k => ?_
  cases k with
  | customUtilities => exact .list nofun
  | excludeDirs => exact Value.keyed_texts _
  | symbols => exact hv
  | strictBem | allowUnknown | format => exact .scalar _

/-- symbols that are a word are loaded as they were saved, and so are the defaults saved with them -/
theorem load_saved_ascii : ∃ t, (strictSample.fresh.load (savedFiles busyFiles (.text "ascii"))).1 = .ok t ∧
    ∀ k, (t.get k).Same ((symbolsOnly (.text "ascii")).get k) := by
  have huser : (layerAt busyFiles strictSample.userFile).toOption.isSome = true := by decide +kernel
  have hsave : (strictSample.save busyFiles .project (symbolsOnly (.text "ascii"))).1.toOption = some () := by
    decide +kernel
  have hread : (Yaml.read (Yaml.write (symbolsOnly (.text "ascii")).value)).toOption =
      some (Yaml.sorted (symbolsOnly (.text "ascii")).value) := by
    decide +kernel
  obtain ⟨t, ht, -, hsame⟩ := load_saved strictSample _ busyFiles _ (symbolsData (.text "ascii"))
    (entriesAt busyFiles strictSample.userFile) (symbolsOnly (.text "ascii")) (apart_create _)
    (keyed_symbolsData (.scalar _)) rfl (layerAt_of_isSome huser) (Prod.ext (ok_of_toOption hsave) rfl)
    (Yaml.kept_of_read (keyed_symbolsOnly (.scalar _)) hread)
  refine ⟨t, ht, fun k => hsame k fun hmap => absurd hmap ?_⟩
  cases k <;> simp [symbolsOnly, Settings.get, Value.IsMap, Value.texts]

/-- symbols that are a mapping -/
def mapped (name : String) (n : Int) : Value := .object [(name, .int n)]

/-- a user file with symbols that are a mapping -/
def mappedFiles : Tree := bothOf "display:\n  symbols:\n    b: 2\n" ""

/-- **Symbols that are mixed:** saved symbols that are a mapping are loaded with an entry more, that of the user's file.
The document itself is read back as it was saved. -/
theorem mapping_mixed :
    (ofEntries (symbolsData (mapped "a" 1))).1 = .ok (symbolsOnly (mapped "a" 1)) ∧
    (strictSample.save mappedFiles .project (symbolsOnly (mapped "a" 1))).1.toOption = some () ∧
    Codec.Kept (symbolsOnly (mapped "a" 1)).value ∧
    ∃ t, (strictSample.fresh.load (savedFiles mappedFiles (mapped "a" 1))).1 = .ok t ∧
      t.symbols = .object [("b", .int 2), ("a", .int 1)] ∧
      ¬ t.symbols.Same (symbolsOnly (mapped "a" 1)).symbols := by
  have hread : (Yaml.read (Yaml.write (symbolsOnly (mapped "a" 1)).value)).toOption =
      some (Yaml.sorted (symbolsOnly (mapped "a" 1)).value) := by
    decide +kernel
  have hkeyed : (mapped "a" 1).Keyed := Value.keyed_object (List.nodup_singleton _) (by simpa using .scalar _)
  have hload : (strictSample.fresh.load (savedFiles mappedFiles (mapped "a" 1))).1.toOption =
      some (symbolsOnly (.object [("b", .int 2), ("a", .int 1)])) := by
    decide +kernel
  refine ⟨rfl, by decide +kernel, Yaml.kept_of_read (keyed_symbolsOnly hkeyed) hread, _, ok_of_toOption hload, rfl, ?_⟩
  intro hsame
  -- below the key that the user's file adds
  have halike := Same.lookup? hsame (.text "b") []
  simp [Entries.lookup?, Scalar.sameKey, Scalar.keyForm, Value.shapeAt] at halike

end Manager

end ClassNaming
