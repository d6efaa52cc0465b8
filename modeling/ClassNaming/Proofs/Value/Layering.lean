/-
Mappings laid over one another, seen key by key.

A value is `Keyed` if no mapping in it has a key twice. Two values are the `Same` if they look alike at every path, so
that the order of a mapping's entries does not count, nor that of a set's members.

- `lookup?_over`: what stands under a key of two layers is what the upper one has there, laid over what the lower has.
- `laid_absorbs`: a mapping that already holds the lower layer is not changed by being laid over it.
- `laid_absorbed`: nor is it changed by having its upper layer laid over it once more.
-/
import Mathlib.Data.List.Nodup
import ClassNaming.Settings.Merge

namespace ClassNaming

/-! ## Keys -/

theorem Scalar.sameKey_iff (a b : Scalar) : a.sameKey b = true ↔ a.keyForm = b.keyForm := by
  simp [Scalar.sameKey]

namespace Entries

/-- keys that name the same entry find the same value -/
theorem lookup?_congr {key other : Scalar} (h : key.keyForm = other.keyForm) (es : Entries) :
    lookup? es key = lookup? es other := by
  induction es with
  | nil => rfl
  | cons e es ih =>
    have hsame : e.1.sameKey key = e.1.sameKey other := by simp [Scalar.sameKey, h]
    simp only [lookup?, hsame, ih]

theorem lookup?_insert (es : Entries) (key other : Scalar) (v : Value) :
    lookup? (insert es key v) other = if key.sameKey other then some v else lookup? es other := by
  induction es with
  | nil => rfl
  | cons e es ih =>
    by_cases hk : e.1.sameKey key = true
    · -- the entry at the front is the one that is set
      have hform := (Scalar.sameKey_iff _ _).1 hk
      have hsame : e.1.sameKey other = key.sameKey other := by simp [Scalar.sameKey, hform]
      by_cases ho : key.sameKey other = true <;> simp [insert, lookup?, hk, hsame, ho]
    · by_cases ho : e.1.sameKey other = true
      · have hne : key.sameKey other = false := by
          rw [Bool.eq_false_iff]
          intro hc
          have := ((Scalar.sameKey_iff _ _).1 ho).trans ((Scalar.sameKey_iff _ _).1 hc).symm
          exact hk ((Scalar.sameKey_iff _ _).2 this)
        simp [insert, lookup?, hk, ho, hne]
      · simp [insert, lookup?, hk, ho, ih]

/-- no key twice -/
def Distinct (es : Entries) : Prop := (es.map fun e => e.1.keyForm).Nodup

theorem mem_of_lookup? {es : Entries} {key : Scalar} {v : Value} (h : lookup? es key = some v) :
    ∃ e ∈ es, e.1.keyForm = key.keyForm ∧ e.2 = v := by
  induction es with
  | nil => simp [lookup?] at h
  | cons e es ih =>
    simp only [lookup?] at h
    split_ifs at h with hk
    · exact ⟨e, List.mem_cons_self, (Scalar.sameKey_iff _ _).1 hk, Option.some.inj h⟩
    · obtain ⟨f, hf, hkey, hv⟩ := ih h
      exact ⟨f, List.mem_cons_of_mem _ hf, hkey, hv⟩

theorem lookup?_eq_none {es : Entries} {key : Scalar} (h : key.keyForm ∉ es.map fun e => e.1.keyForm) :
    lookup? es key = none := by
  cases hl : lookup? es key with
  | none => rfl
  | some v =>
    obtain ⟨e, he, hkey, -⟩ := mem_of_lookup? hl
    exact absurd (List.mem_map.2 ⟨e, he, hkey⟩) h

/-- where no key stands twice, the order of the entries does not matter -/
theorem lookup?_perm {es fs : Entries} (h : es.Perm fs) (hd : es.Distinct) (key : Scalar) :
    lookup? fs key = lookup? es key := by
  induction h with
  | nil => rfl
  | cons e _ ih =>
    have hd' : Distinct _ := (List.nodup_cons.1 hd).2
    simp only [lookup?, ih hd']
  | swap e f es =>
    have hne : e.1.keyForm ≠ f.1.keyForm := fun heq => by simp [Distinct, heq] at hd
    by_cases he : e.1.keyForm = key.keyForm
    · have hf : f.1.sameKey key = false := by
        simpa [Scalar.sameKey] using fun hf : f.1.keyForm = key.keyForm => hne (he.trans hf.symm)
      simp [lookup?, hf]
    · have he : e.1.sameKey key = false := by simpa [Scalar.sameKey] using he
      simp [lookup?, he]
  | trans h _ ih ih' =>
    have hd' : Distinct _ := (h.map _).nodup_iff.1 hd
    rw [ih' hd', ih hd]

theorem keys_insert (es : Entries) (key : Scalar) (v : Value) :
    (insert es key v).map (fun e => e.1.keyForm) =
      if key.keyForm ∈ es.map (fun e => e.1.keyForm) then es.map (fun e => e.1.keyForm)
      else es.map (fun e => e.1.keyForm) ++ [key.keyForm] := by
  induction es with
  | nil => simp [insert]
  | cons e es ih =>
    by_cases hk : e.1.keyForm = key.keyForm
    · simp [insert, (Scalar.sameKey_iff _ _).2 hk, hk]
    · have hs : e.1.sameKey key = false := by simpa [Scalar.sameKey] using hk
      have hk' : ¬ key.keyForm = e.1.keyForm := fun h => hk h.symm
      simp only [insert, hs, Bool.false_eq_true, if_false, List.map_cons, ih, List.mem_cons, hk', false_or]
      split_ifs <;> rfl

theorem Distinct.insert {es : Entries} (h : es.Distinct) (key : Scalar) (v : Value) :
    Distinct (Entries.insert es key v) := by
  unfold Distinct at *
  rw [keys_insert]
  split_ifs with hmem
  · exact h
  · exact List.Nodup.append h (List.nodup_singleton _) (by simpa using hmem)

theorem mem_insert {es : Entries} {key : Scalar} {v : Value} {e : Scalar × Value} (h : e ∈ insert es key v) :
    e.2 = v ∨ e ∈ es := by
  induction es with
  | nil =>
    obtain rfl : e = (key, v) := by simpa [insert] using h
    exact Or.inl rfl
  | cons f es ih =>
    simp only [insert] at h
    split_ifs at h
    · rcases List.mem_cons.1 h with rfl | h
      · exact Or.inl rfl
      · exact Or.inr (List.mem_cons_of_mem _ h)
    · rcases List.mem_cons.1 h with rfl | h
      · exact Or.inr List.mem_cons_self
      · exact (ih h).imp_right (List.mem_cons_of_mem _)

end Entries

/-- no mapping in the value has a key twice -/
inductive Value.Keyed : Value → Prop
  | scalar (s : Scalar) : Keyed (.scalar s)
  | list {items : List Value} (h : ∀ v ∈ items, Keyed v) : Keyed (.list items)
  | map {es : Entries} (hd : es.Distinct) (h : ∀ e ∈ es, Keyed e.2) : Keyed (.map es)

theorem Value.Keyed.distinct {es : Entries} (h : Value.Keyed (.map es)) : es.Distinct := by
  cases h with
  | map hd _ => exact hd

/-- each entry of a keyed mapping is keyed -/
theorem Value.Keyed.lookup? {es : Entries} (h : Value.Keyed (.map es)) {key : Scalar} {v : Value}
    (hv : Entries.lookup? es key = some v) : v.Keyed := by
  cases h with
  | map hd h =>
    obtain ⟨e, he, -, rfl⟩ := Entries.mem_of_lookup? hv
    exact h e he

/-- texts that differ are keys that differ -/
theorem Entries.distinct_fields {fields : List (String × Value)} (h : (fields.map Prod.fst).Nodup) :
    Entries.Distinct (fields.map fun (name, v) => (.text name, v)) := by
  have hinj : Function.Injective fun name : String => (Scalar.text name).keyForm := fun _ _ heq => by cases heq; rfl
  simpa [Entries.Distinct, Function.comp_def] using h.map hinj

theorem Value.keyed_object {fields : List (String × Value)} (hd : (fields.map Prod.fst).Nodup)
    (h : ∀ f ∈ fields, f.2.Keyed) : (Value.object fields).Keyed := by
  refine .map (Entries.distinct_fields hd) fun e he => ?_
  obtain ⟨f, hf, rfl⟩ := List.mem_map.1 he
  exact h f hf

theorem Value.keyed_texts (names : List String) : (Value.texts names).Keyed := by
  refine .list fun v hv => ?_
  obtain ⟨name, -, rfl⟩ := List.mem_map.1 hv
  exact .scalar _

/-! ## Equality -/

mutual

/-- values can be compared -/
def Value.decEq : (a b : Value) → Decidable (a = b)
  | .scalar s, .scalar t => decidable_of_iff (s = t) (by simp)
  | .list xs, .list ys =>
    match Value.decEqItems xs ys with
    | isTrue h => isTrue (h ▸ rfl)
    | isFalse h => isFalse fun hc => h (Value.list.inj hc)
  | .map es, .map fs =>
    match Value.decEqEntries es fs with
    | isTrue h => isTrue (h ▸ rfl)
    | isFalse h => isFalse fun hc => h (Value.map.inj hc)
  | .record n s es, .record n' s' fs =>
    match Value.decEqEntries es fs with
    | isTrue h => decidable_of_iff (n = n' ∧ s = s') (by simp [h])
    | isFalse h => isFalse fun hc => h (Value.record.inj hc).2.2
  | .scalar _, .list _ | .scalar _, .map _ | .scalar _, .record _ _ _ => isFalse nofun
  | .list _, .scalar _ | .list _, .map _ | .list _, .record _ _ _ => isFalse nofun
  | .map _, .scalar _ | .map _, .list _ | .map _, .record _ _ _ => isFalse nofun
  | .record _ _ _, .scalar _ | .record _ _ _, .list _ | .record _ _ _, .map _ => isFalse nofun

def Value.decEqItems : (xs ys : List Value) → Decidable (xs = ys)
  | [], [] => isTrue rfl
  | x :: xs, y :: ys =>
    match Value.decEq x y, Value.decEqItems xs ys with
    | isTrue h, isTrue h' => isTrue (h ▸ h' ▸ rfl)
    | isFalse h, _ => isFalse fun hc => h (List.cons.inj hc).1
    | _, isFalse h => isFalse fun hc => h (List.cons.inj hc).2
  | [], _ :: _ | _ :: _, [] => isFalse nofun

def Value.decEqEntries : (es fs : List (Scalar × Value)) → Decidable (es = fs)
  | [], [] => isTrue rfl
  | (k, v) :: es, (l, w) :: fs =>
    match Value.decEq v w, Value.decEqEntries es fs with
    | isTrue h, isTrue h' => decidable_of_iff (k = l) (by simp [h, h'])
    | isFalse h, _ => isFalse fun hc => h (Prod.mk.inj (List.cons.inj hc).1).2
    | _, isFalse h => isFalse fun hc => h (List.cons.inj hc).2
  | [], _ :: _ | _ :: _, [] => isFalse nofun

end

instance : DecidableEq Value := Value.decEq

/-! ## Laying over -/

/-- what stands where `lower` stood and `upper` is laid over it -/
def Value.laid : Option Value → Option Value → Option Value
  | lower, none => lower
  | lower, some upper => some (Value.over lower upper)

@[simp] theorem Value.laid_none (lower : Option Value) : Value.laid lower none = lower := rfl

@[simp] theorem Value.laid_some (lower : Option Value) (upper : Value) :
    Value.laid lower (some upper) = some (Value.over lower upper) := rfl

@[simp] theorem Value.over_map_map (ls us : Entries) :
    Value.over (some (.map ls)) (.map us) = .map (Entries.over ls us) := by
  rw [Value.over]

@[simp] theorem Value.over_none (v : Value) : Value.over none v = v := by
  unfold Value.over
  rfl

@[simp] theorem Value.laid_none_left (upper : Option Value) : Value.laid none upper = upper := by
  cases upper <;> simp

/-- the value is a mapping -/
def Value.IsMap (v : Value) : Prop := ∃ es, v = .map es

/-- only a mapping has something shine through from below -/
theorem Value.over_of_not_isMap {v : Value} (h : ¬ v.IsMap) (lower : Option Value) : Value.over lower v = v := by
  unfold Value.over
  split
  · exact absurd ⟨_, rfl⟩ h
  · rfl

/-- a mapping that is laid over something else is not mixed with it -/
theorem Value.over_of_lower_not_isMap {lower : Value} (h : ¬ lower.IsMap) (v : Value) :
    Value.over (some lower) v = v := by
  unfold Value.over
  split
  · rename_i hl
    exact absurd ⟨_, Option.some.inj hl⟩ h
  · rfl

/-- no mapping has a key twice, as far down as mappings lead; what is no mapping may be anything -/
inductive Value.Nested : Value → Prop
  | leaf {v : Value} (h : ¬ v.IsMap) : Nested v
  | map {es : Entries} (hd : es.Distinct) (h : ∀ e ∈ es, Nested e.2) : Nested (.map es)

theorem Value.Nested.entries {es : Entries} (h : Value.Nested (.map es)) :
    es.Distinct ∧ ∀ e ∈ es, Value.Nested e.2 := by
  cases h with
  | leaf h => exact absurd ⟨es, rfl⟩ h
  | map hd h => exact ⟨hd, h⟩

theorem Value.Nested.lookup? {es : Entries} (h : Value.Nested (.map es)) {key : Scalar} {v : Value}
    (hv : Entries.lookup? es key = some v) : v.Nested := by
  obtain ⟨e, he, -, rfl⟩ := Entries.mem_of_lookup? hv
  exact h.entries.2 e he

theorem Value.Keyed.nested {v : Value} (h : v.Keyed) : v.Nested := by
  induction h with
  | scalar s => exact .leaf (by simp [IsMap])
  | list h ih => exact .leaf (by simp [IsMap])
  | map hd h ih => exact .map hd ih

theorem Value.isMap_over (lower : Option Value) {v : Value} : (Value.over lower v).IsMap ↔ v.IsMap := by
  by_cases hv : v.IsMap
  · obtain ⟨es, rfl⟩ := hv
    refine ⟨fun _ => ⟨es, rfl⟩, fun _ => ?_⟩
    unfold Value.over
    split
    · exact ⟨_, rfl⟩
    · exact ⟨es, rfl⟩
  · rw [Value.over_of_not_isMap hv]

theorem Entries.over_nil (lower : Entries) : Entries.over lower [] = lower := by
  rw [Entries.over]

/-- a key of two layers -/
theorem Entries.lookup?_over {upper : Entries} (h : upper.Distinct) (lower : Entries) (key : Scalar) :
    Entries.lookup? (Entries.over lower upper) key =
      Value.laid (Entries.lookup? lower key) (Entries.lookup? upper key) := by
  induction upper generalizing lower with
  | nil => rw [Entries.over]; rfl
  | cons e upper ih =>
    obtain ⟨hnot, hd⟩ : e.1.keyForm ∉ upper.map (fun e => e.1.keyForm) ∧ Entries.Distinct upper := by
      simpa [Entries.Distinct] using h
    rw [Entries.over, ih hd, Entries.lookup?_insert]
    by_cases hk : e.1.sameKey key = true
    · -- the key is that of the first entry, and no later one has it
      have hform := (Scalar.sameKey_iff _ _).1 hk
      have hrest : Entries.lookup? upper key = none := Entries.lookup?_eq_none (hform ▸ hnot)
      have hlow := Entries.lookup?_congr hform lower
      simp [hk, hrest, hlow, Entries.lookup?]
    · simp [hk, Entries.lookup?]

/-! ## Values that look alike -/

namespace Scalar

/-- what a scalar is compared by: of an object that is shown in an order of its own, not that order -/
def bare : Scalar → Scalar
  | .foreign x => .foreign { x with display := x.display.map fun _ => "" }
  | s => s

/-- what the scalar is compared by settles how it is shown, too -/
def Settled : Scalar → Prop
  | .foreign x => x.display = none
  | _ => True

theorem bare_of_settled {s : Scalar} (h : s.Settled) : s.bare = s := by
  cases s with
  | foreign x =>
    have hx : x.display = none := h
    cases x
    subst hx
    rfl
  | _ => rfl

theorem eq_of_bare_eq {s t : Scalar} (h : t.bare = s) (hs : s.Settled) : t = s := by
  subst h
  refine (bare_of_settled ?_).symm
  cases t with
  | foreign x =>
    have hx : x.display.map (fun _ => "") = none := hs
    exact Option.map_eq_none_iff.1 hx
  | _ => trivial

theorem typeName_bare (s : Scalar) : s.bare.typeName = s.typeName := by
  cases s <;> rfl

end Scalar

namespace Value

/-- one step into a value -/
inductive Step where
  | item (i : Nat)
  | entry (key : Scalar)

/-- what a value is at its top -/
inductive Shape where
  | scalar (s : Scalar)
  | list (length : Nat)
  | map
  | record (name shown : String)

def shape : Value → Shape
  | .scalar s => .scalar s.bare
  | .list items => .list items.length
  | .map _ => .map
  | .record name shown _ => .record name shown

/-- what stands at a path, if there is such a path -/
def shapeAt : List Step → Value → Option Shape
  | [], v => some v.shape
  | .item i :: path, .list items => (items[i]?).bind (shapeAt path)
  | .entry key :: path, .map es => (Entries.lookup? es key).bind (shapeAt path)
  | _, _ => none

/-- alike at every path, or both not there -/
def Alike (a b : Option Value) : Prop := ∀ path, a.bind (shapeAt path) = b.bind (shapeAt path)

/-- the same value, the order of entries in mappings apart -/
def Same (a b : Value) : Prop := Alike (some a) (some b)

theorem Alike.refl (a : Option Value) : Alike a a := fun _ => rfl

theorem Alike.symm {a b : Option Value} (h : Alike a b) : Alike b a := fun path => (h path).symm

theorem Alike.trans {a b c : Option Value} (h : Alike a b) (h' : Alike b c) : Alike a c :=
  fun path => (h path).trans (h' path)

theorem Same.refl (a : Value) : Same a a := Alike.refl _

theorem Same.symm {a b : Value} (h : Same a b) : Same b a := Alike.symm h

theorem Same.trans {a b c : Value} (h : Same a b) (h' : Same b c) : Same a c := Alike.trans h h'

theorem Same.shape_eq {a b : Value} (h : Same a b) : a.shape = b.shape := Option.some.inj (h [])

theorem Alike.eq_none {a : Option Value} (h : Alike a none) : a = none := by
  cases a with
  | none => rfl
  | some v => exact absurd (h []) (by simp [shapeAt])

theorem Alike.exists_some {a : Option Value} {b : Value} (h : Alike a (some b)) : ∃ v, a = some v ∧ Same v b := by
  cases a with
  | none => exact absurd (h []) (by simp [shapeAt])
  | some v => exact ⟨v, rfl, h⟩

theorem Same.eq_scalar {a : Value} {s : Scalar} (h : Same a (.scalar s)) (hs : s.Settled) : a = .scalar s := by
  have hshape := h.shape_eq
  cases a with
  | scalar t =>
    have hbare : t.bare = s := by simpa [shape, Scalar.bare_of_settled hs] using hshape
    rw [Scalar.eq_of_bare_eq hbare hs]
  | list items => simp [shape] at hshape
  | map es => simp [shape] at hshape
  | record name shown es => simp [shape] at hshape

theorem Same.eq_list {a : Value} {items : List Value} (h : Same a (.list items)) :
    ∃ others, a = .list others ∧ ∀ i : Nat, Alike others[i]? items[i]? := by
  have hs := h.shape_eq
  cases a with
  | list others =>
    refine ⟨others, rfl, fun i path => ?_⟩
    simpa [shapeAt] using h (.item i :: path)
  | scalar s => simp [shape] at hs
  | map es => simp [shape] at hs
  | record name shown es => simp [shape] at hs

theorem Same.isMap {a : Value} {es : Entries} (h : Same a (.map es)) : a.IsMap := by
  have hs := h.shape_eq
  cases a with
  | map fs => exact ⟨fs, rfl⟩
  | scalar s => simp [shape] at hs
  | list items => simp [shape] at hs
  | record name shown es => simp [shape] at hs

/-- mappings that are the same have like values under each key -/
theorem Same.lookup? {es fs : Entries} (h : Same (.map fs) (.map es)) (key : Scalar) :
    Alike (Entries.lookup? fs key) (Entries.lookup? es key) := by
  intro path
  simpa [shapeAt] using h (.entry key :: path)

theorem Same.isMap_iff {a b : Value} (h : Same a b) : a.IsMap ↔ b.IsMap := by
  constructor
  · rintro ⟨es, rfl⟩
    exact h.symm.isMap
  · rintro ⟨es, rfl⟩
    exact h.isMap

/-- lists of texts are the same only if they are equal -/
theorem Same.eq_texts {a : Value} {names : List String} (h : Same a (.texts names)) : a = .texts names := by
  obtain ⟨items, rfl, hitems⟩ := Same.eq_list h
  suffices items = names.map .text by rw [this]; rfl
  refine List.ext_getElem? fun i => ?_
  have hi := hitems i
  cases hn : (names.map Value.text)[i]? with
  | none => rw [hn] at hi; exact hi.eq_none
  | some v =>
    rw [hn] at hi
    obtain ⟨w, hw, hsame⟩ := hi.exists_some
    obtain ⟨s, -, rfl⟩ : ∃ s, names[i]? = some s ∧ Value.text s = v := by simpa using hn
    rw [hw, hsame.eq_scalar trivial]

/-! ## Absorption -/

/-- a mapping that looks like something laid over `lower` can be laid over `lower` without a change -/
theorem laid_absorbs {w : Value} (hw : w.Keyed) {lower upper : Option Value} (hu : ∀ u ∈ upper, Keyed u)
    (h : Alike (some w) (laid lower upper)) : Same (Value.over lower w) w := by
  intro path
  induction path generalizing w lower upper with
  | nil =>
    by_cases hm : w.IsMap
    · obtain ⟨es, rfl⟩ := hm
      obtain ⟨fs, hfs⟩ := (isMap_over lower).2 ⟨es, rfl⟩
      simp [shapeAt, hfs, shape]
    · rw [over_of_not_isMap hm]
  | cons step path ih =>
    by_cases hm : w.IsMap
    swap
    · rw [over_of_not_isMap hm]
    cases lower with
    | none => rw [over_none]
    | some l =>
      by_cases hl : l.IsMap
      swap
      · rw [over_of_lower_not_isMap hl]
      obtain ⟨ws, rfl⟩ := hm
      obtain ⟨ls, rfl⟩ := hl
      cases step with
      | item i => simp [shapeAt]
      | entry key =>
        have hws : Entries.Distinct ws := hw.distinct
        -- what the two layers have under this key
        obtain ⟨part, hpart, hkeyed⟩ : ∃ part : Option Value,
            Alike (Entries.lookup? ws key) (laid (Entries.lookup? ls key) part) ∧ ∀ u ∈ part, Keyed u := by
          cases upper with
          | none =>
            exact ⟨none, Same.lookup? h key, by simp⟩
          | some u =>
            obtain ⟨us, rfl⟩ : u.IsMap := (isMap_over _).1 ((Same.isMap_iff h).1 ⟨ws, rfl⟩)
            rw [laid_some, over_map_map] at h
            have huk : Keyed (.map us) := hu _ rfl
            have hus : Entries.Distinct us := huk.distinct
            refine ⟨Entries.lookup? us key, ?_, fun v hv => huk.lookup? hv⟩
            rw [← Entries.lookup?_over hus]
            exact Same.lookup? h key
        simp only [over_map_map, shapeAt, Option.bind_some]
        rw [Entries.lookup?_over hws]
        cases hk : Entries.lookup? ws key with
        | none =>
          rw [hk] at hpart
          have hnone := hpart.symm.eq_none
          cases part with
          | none => rw [laid_none] at hnone ⊢; rw [hnone]
          | some u => simp at hnone
        | some v =>
          rw [hk] at hpart
          exact ih (hw.lookup? hk) hkeyed hpart

/-- a value that looks like `upper` laid over something is not changed by laying `upper` over it once more -/
theorem laid_absorbed {w : Value} {lower : Option Value} {u : Value} (hu : u.Nested)
    (h : Same w (Value.over lower u)) : Same (Value.over (some w) u) w := by
  intro path
  induction path generalizing w lower u with
  | nil =>
    have hshape : (Value.over (some w) u).shape = w.shape := by
      by_cases hm : u.IsMap
      · obtain ⟨fs, hfs⟩ := (isMap_over (some w)).2 hm
        obtain ⟨ws, rfl⟩ := (Same.isMap_iff h).2 ((isMap_over _).2 hm)
        rw [hfs]; rfl
      · rw [over_of_not_isMap hm] at h ⊢
        exact h.shape_eq.symm
    simp [shapeAt, hshape]
  | cons step path ih =>
    by_cases hm : u.IsMap
    swap
    · rw [over_of_not_isMap hm] at h ⊢
      exact (h _).symm
    obtain ⟨ws, rfl⟩ := (Same.isMap_iff h).2 ((isMap_over _).2 hm)
    obtain ⟨us, rfl⟩ := hm
    have hus : Entries.Distinct us := hu.entries.1
    cases step with
    | item i => simp [shapeAt]
    | entry key =>
      simp only [over_map_map, shapeAt, Option.bind_some]
      rw [Entries.lookup?_over hus]
      cases hk : Entries.lookup? us key with
      | none => rfl
      | some v =>
        -- below this key `w` looks like `v` laid over what the lower layer has there
        obtain ⟨below, hbelow⟩ : ∃ below : Option Value,
            Alike (Entries.lookup? ws key) (some (Value.over below v)) := by
          by_cases hl : ∃ ls, lower = some (.map ls)
          · obtain ⟨ls, rfl⟩ := hl
            rw [over_map_map] at h
            refine ⟨Entries.lookup? ls key, ?_⟩
            have := Same.lookup? h key
            rwa [Entries.lookup?_over hus, hk] at this
          · have hover : Value.over lower (.map us) = .map us := by
              unfold Value.over
              split
              · exact absurd ⟨_, rfl⟩ hl
              · rfl
            rw [hover] at h
            refine ⟨none, ?_⟩
            have := Same.lookup? h key
            rwa [hk, ← over_none v] at this
        obtain ⟨x, hx, hsame⟩ := hbelow.exists_some
        rw [hx, laid_some]
        exact ih (hu.lookup? hk) hsame

end Value

end ClassNaming
