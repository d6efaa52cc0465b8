/-
The laws of laying mappings over one another.

- `laid_assoc`: of three layers it does not matter which two are laid together first, if no path of keys leads to a
  mapping in one of them and to something else in another.
- `layering_laws`: nothing laid over a mapping, or a mapping over nothing, is that mapping; laying it over itself, or
  its upper layer over it once more, changes nothing; and layering leaves both mappings as they were.
-/
import ClassNaming.Proofs.Value.Memory

namespace ClassNaming

open Value (Alike Same)

namespace Entries

/-- the same mapping, the order of entries apart -/
def Same (a b : Entries) : Prop := Value.Same (.map a) (.map b)

theorem Distinct.over {lower : Entries} (h : lower.Distinct) (upper : Entries) :
    Distinct (Entries.over lower upper) := by
  induction upper generalizing lower with
  | nil => rwa [Entries.over]
  | cons e upper ih =>
    rw [Entries.over]
    exact ih (h.insert _ _)

end Entries

/-! ## Paths of keys -/

namespace Value

/-- what a path of keys leads to -/
def under? : List Scalar → Value → Option Value
  | [], v => some v
  | key :: path, .map es => (Entries.lookup? es key).bind (under? path)
  | _ :: _, _ => none

/-- no path of keys leads to a mapping in one and to something else in the other -/
def Compatible (a b : Option Value) : Prop :=
  ∀ path v w, a.bind (under? path) = some v → b.bind (under? path) = some w → (v.IsMap ↔ w.IsMap)

theorem Compatible.isMap_iff {v w : Value} (h : Compatible (some v) (some w)) : v.IsMap ↔ w.IsMap :=
  h [] v w rfl rfl

theorem compatible_none_left (b : Option Value) : Compatible none b := by
  intro path v w hv
  cases hv

theorem compatible_none_right (a : Option Value) : Compatible a none := by
  intro path v w _ hw
  cases hw

/-- mappings are compatible if what they have under each key is -/
theorem compatible_map_iff {es fs : Entries} : Compatible (some (.map es)) (some (.map fs)) ↔
    ∀ key, Compatible (Entries.lookup? es key) (Entries.lookup? fs key) := by
  constructor
  · intro h key path v w hv hw
    exact h (key :: path) v w hv hw
  · intro h path v w hv hw
    cases path with
    | nil =>
      cases hv
      cases hw
      exact iff_of_true ⟨es, rfl⟩ ⟨fs, rfl⟩
    | cons key path => exact h key path v w hv hw

theorem compatible_of_not_isMap {v w : Value} (hv : ¬ v.IsMap) (hw : ¬ w.IsMap) : Compatible (some v) (some w) := by
  intro path v' w' hv' hw'
  cases path with
  | nil =>
    cases hv'
    cases hw'
    exact iff_of_false hv hw
  | cons key path =>
    cases v with
    | map es => exact absurd ⟨es, rfl⟩ hv
    | scalar s => cases hv'
    | list items => cases hv'
    | record name shown es => cases hv'

/-! ## Three layers -/

/-- at the top it does not matter unless all three are mappings -/
theorem laid_assoc_top {a b d : Option Value} (hab : Compatible a b) (hbd : Compatible b d) :
    laid (laid a b) d = laid a (laid b d) ∨
      ∃ ls ms us, a = some (.map ls) ∧ b = some (.map ms) ∧ d = some (.map us) := by
  rcases d with _ | z
  · exact .inl rfl
  rcases b with _ | y
  · exact .inl (by simp)
  rcases a with _ | x
  · exact .inl (by simp)
  by_cases hz : z.IsMap
  · obtain ⟨ms, rfl⟩ := hbd.isMap_iff.2 hz
    obtain ⟨ls, rfl⟩ := hab.isMap_iff.2 ⟨ms, rfl⟩
    obtain ⟨us, rfl⟩ := hz
    exact .inr ⟨ls, ms, us, rfl, rfl, rfl⟩
  · exact .inl (by simp [over_of_not_isMap hz])

/-- **Three layers** that are compatible can be laid together in either order. -/
theorem laid_assoc {a b d : Option Value} (hb : ∀ v ∈ b, Nested v) (hd : ∀ v ∈ d, Nested v) (hab : Compatible a b)
    (hbd : Compatible b d) (had : Compatible a d) : Alike (laid (laid a b) d) (laid a (laid b d)) := by
  intro path
  induction path generalizing a b d with
  | nil =>
    rcases laid_assoc_top hab hbd with heq | ⟨ls, ms, us, rfl, rfl, rfl⟩
    · rw [heq]
    · rfl
  | cons step path ih =>
    rcases laid_assoc_top hab hbd with heq | ⟨ls, ms, us, rfl, rfl, rfl⟩
    · rw [heq]
    simp only [laid_some, over_map_map, Option.bind_some]
    cases step with
    | item i => rfl
    | entry key =>
      -- under each key there are three layers again
      have hms : Nested (.map ms) := hb _ rfl
      have hus : Nested (.map us) := hd _ rfl
      simp only [shapeAt]
      rw [Entries.lookup?_over hus.entries.1, Entries.lookup?_over hms.entries.1,
        Entries.lookup?_over (hms.entries.1.over us), Entries.lookup?_over hus.entries.1]
      exact ih (fun v hv => hms.lookup? hv) (fun v hv => hus.lookup? hv) (compatible_map_iff.1 hab key)
        (compatible_map_iff.1 hbd key) (compatible_map_iff.1 had key)

end Value

/-! ## The laws -/

theorem Entries.nil_over_same {b : Entries} (hb : Value.Nested (.map b)) : (Entries.over [] b).Same b := by
  intro path
  cases path with
  | nil => rfl
  | cons step path =>
    cases step with
    | item i => rfl
    | entry key =>
      simp only [Option.bind_some, Value.shapeAt]
      rw [Entries.lookup?_over hb.entries.1, Entries.lookup?, Value.laid_none_left]

theorem Entries.over_self_same {a : Entries} (ha : Value.Nested (.map a)) : (Entries.over a a).Same a := by
  have hself : (Value.map a).Same (Value.over none (.map a)) := by
    rw [Value.over_none]
    exact Same.refl _
  have habsorbed := Value.laid_absorbed ha hself
  rwa [Value.over_map_map] at habsorbed

theorem Entries.over_twice_same (a : Entries) {b : Entries} (hb : Value.Nested (.map b)) :
    (Entries.over (Entries.over a b) b).Same (Entries.over a b) := by
  have habsorbed := Value.laid_absorbed hb (Same.refl (Value.over (some (.map a)) (.map b)))
  rwa [Value.over_map_map, Value.over_map_map] at habsorbed

/-- **The laws of layering.** For mappings that are nested to any depth over any leaves, up to the order of entries:
nothing is the neutral layer on either side; a mapping laid over itself is that mapping, and laying the upper layer
over the result once more does not change it; and where no path of keys leads to a mapping in one of three and to
something else in another, it does not matter which two are laid together first. In memory, layering comes to the same
result in a place of its own, and every place that was there holds what it held, so those of both layers too. -/
theorem layering_laws (a b d : Entries) (ha : Value.Nested (.map a)) (hb : Value.Nested (.map b))
    (hd : Value.Nested (.map d)) :
    (Entries.over a []).Same a ∧ (Entries.over [] b).Same b ∧ (Entries.over a a).Same a ∧
    (Entries.over (Entries.over a b) b).Same (Entries.over a b) ∧
    (Value.Compatible (some (.map a)) (some (.map b)) → Value.Compatible (some (.map b)) (some (.map d)) →
      Value.Compatible (some (.map a)) (some (.map d)) →
      (Entries.over (Entries.over a b) d).Same (Entries.over a (Entries.over b d))) ∧
    ∃ least, ∀ depth ≥ least, ∀ (mem : Memory) (lower upper : Nat), mem.MapAt lower a → mem.MapAt upper b →
      ∃ mem' place, mem.lay depth lower upper = some (mem', place) ∧ mem <+: mem' ∧
        mem'.MapAt place (Entries.over a b) ∧ mem'.MapAt lower a ∧ mem'.MapAt upper b := by
  refine ⟨?_, Entries.nil_over_same hb, Entries.over_self_same ha, Entries.over_twice_same a hb, ?_, ?_⟩
  · rw [Entries.over_nil]
    exact Same.refl _
  · intro hab hbd had
    have halike := Value.laid_assoc (by simpa using hb) (by simpa using hd) hab hbd had
    simp only [Value.laid_some, Value.over_map_map] at halike
    exact halike
  · exact ⟨sizeOf b + 1, fun depth hdepth mem lower upper => Memory.lay_apart hdepth⟩

/-! ## Sample layers -/

/-- a mapping with one entry -/
def single (name : String) (v : Value) : Entries := [(.text name, v)]

/-- the layer of a section with one setting -/
def sectionWith (name : String) (v : Value) : Entries := single "rules" (.map (single name v))

theorem nested_single (name : String) {v : Value} (h : v.Nested) : Value.Nested (.map (single name v)) :=
  .map (List.nodup_singleton _) (by simpa [single] using h)

theorem nested_sectionWith (name : String) {v : Value} (h : v.Nested) : Value.Nested (.map (sectionWith name v)) :=
  nested_single "rules" (nested_single name h)

theorem compatible_single {name other : String} {v w : Value}
    (h : name = other → Value.Compatible (some v) (some w)) :
    Value.Compatible (some (.map (single name v))) (some (.map (single other w))) := by
  refine Value.compatible_map_iff.2 fun key => ?_
  simp only [single, Entries.lookup?]
  split_ifs with hname hother
  · refine h ?_
    have hforms := ((Scalar.sameKey_iff _ _).1 hname).trans ((Scalar.sameKey_iff _ _).1 hother).symm
    simpa [Scalar.keyForm] using hforms
  · exact Value.compatible_none_right _
  · exact Value.compatible_none_left _
  · exact Value.compatible_none_left _

/-- two layers with a place for each mapping -/
def twoLayers : Memory :=
  [[(.text "rules", .node 1)], [(.text "strict", .leaf (.bool true))],
    [(.text "rules", .node 3)], [(.text "strict", .leaf (.bool false))]]

/-- three layers that agree on what is a section, the first two with places of their own -/
theorem layering_laws_rules :
    let a := sectionWith "strict" (.bool true)
    let b := sectionWith "strict" (.bool false)
    let d := sectionWith "extra" (.list [])
    (Entries.over (Entries.over a b) d).Same (Entries.over a (Entries.over b d)) ∧
    ∃ depth mem' place, twoLayers.lay depth 0 2 = some (mem', place) ∧ twoLayers <+: mem' ∧
      mem'.MapAt place (Entries.over a b) ∧ mem'.MapAt 0 a ∧ mem'.MapAt 2 b := by
  intro a b d
  have hleaf : ∀ s : Scalar, ¬ (Value.scalar s).IsMap := by simp [Value.IsMap]
  have hlist : ¬ (Value.list []).IsMap := by simp [Value.IsMap]
  obtain ⟨-, -, -, -, hassoc, least, hmemory⟩ := layering_laws a b d (nested_sectionWith _ (.leaf (hleaf _)))
    (nested_sectionWith _ (.leaf (hleaf _))) (nested_sectionWith _ (.leaf hlist))
  have hab : Value.Compatible (some (.map a)) (some (.map b)) :=
    compatible_single fun _ => compatible_single fun _ => Value.compatible_of_not_isMap (hleaf _) (hleaf _)
  have hbd : Value.Compatible (some (.map b)) (some (.map d)) :=
    compatible_single fun _ => compatible_single fun h => absurd h (by decide)
  have had : Value.Compatible (some (.map a)) (some (.map d)) :=
    compatible_single fun _ => compatible_single fun h => absurd h (by decide)
  have hlower : twoLayers.MapAt 0 a := .node rfl (.cons (.node rfl (.cons (.leaf (hleaf _)) .nil)) .nil)
  have hupper : twoLayers.MapAt 2 b := .node rfl (.cons (.node rfl (.cons (.leaf (hleaf _)) .nil)) .nil)
  exact ⟨hassoc hab hbd had, least, hmemory least le_rfl twoLayers 0 2 hlower hupper⟩

/-- a number between two sections of one name: laid over the first one it hides it from the second -/
example :
    Entries.over (Entries.over (sectionWith "strict" (.bool true)) (single "rules" (.int 1)))
      (sectionWith "extra" (.list [])) = sectionWith "extra" (.list []) ∧
    Entries.over (sectionWith "strict" (.bool true)) (Entries.over (single "rules" (.int 1))
      (sectionWith "extra" (.list []))) =
        single "rules" (.object [("strict", .bool true), ("extra", .list [])]) := by
  decide +kernel

end ClassNaming
