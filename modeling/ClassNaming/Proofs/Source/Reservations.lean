/-
How the two maps of a registry keep in step.

A registry is changed by calls that register a source or drop one. It is consistent if its maps say the same: a file is
supported exactly if there is a source for it, the extensions are those that registered sources list, and none is
reserved for a name that is not registered.

- `step_sound`, `run_sound`: in every registry that calls lead to, a source stands under its own name and its extensions
  are reserved for it.
- `consistent_step_iff`: a call on a consistent registry leaves it consistent exactly if it does not register a name
  again with fewer extensions, and gives no extension that a file can have to the empty name.
- `consistent_along_iff`: so a run keeps a registry consistent exactly if each of its calls does.
- `narrowed_inconsistent`: a run that does not.
-/
import ClassNaming.Proofs.Table
import ClassNaming.Source.Registry

namespace ClassNaming

/-- the extensions of a source in lower case -/
def Source.lowered (s : Source) : List String := s.extensions.map Text.lower

namespace Registry

/-! ## Entries by key -/

section Entries

variable {α : Type} {entries : List (String × α)}

/-- with no key twice, an entry that is filtered out uncovers no other -/
theorem lookup_filter (keep : String × α → Bool) (key : String) (h : (entries.map (·.1)).Nodup) :
    (entries.filter keep).lookup key = (entries.lookup key).filter fun v => keep (key, v) := by
  induction entries with
  | nil => rfl
  | cons entry entries ih =>
    obtain ⟨k, v⟩ := entry
    obtain ⟨hk, hrest⟩ := List.nodup_cons.1 h
    by_cases hkey : key = k
    · subst hkey
      have hnone : entries.lookup key = none := by
        rw [Table.mem_names_iff] at hk
        exact Option.not_isSome_iff_eq_none.1 hk
      by_cases hkeep : keep (key, v) = true
      · simp [hkeep, Option.filter]
      · simp [hkeep, ih hrest, hnone, Option.filter]
    · have hb : (key == k) = false := by simpa using hkey
      by_cases hkeep : keep (k, v) = true
      · simp [hkeep, List.lookup_cons, hb, ih hrest]
      · simp [hkeep, List.lookup_cons, hb, ih hrest]

theorem nodup_filter (keep : String × α → Bool) (h : (entries.map (·.1)).Nodup) :
    ((entries.filter keep).map (·.1)).Nodup :=
  h.sublist (List.filter_sublist.map _)

end Entries

/-! ## What a call does to the two maps -/

/-- the name that an extension in lower case is reserved for -/
def reserved? (r : Registry) (e : String) : Option String := r.owners.lookup e

/-- no extension of the source is reserved for another name -/
def Admits (r : Registry) (s : Source) : Prop :=
  ∀ e ∈ s.lowered, ∀ owner, r.reserved? e = some owner → owner = s.name

/-- the registry with a source that it admits -/
def registered (r : Registry) (s : Source) : Registry :=
  ⟨Table.set s.name s r.sources, s.extensions.foldl (fun owners e => Table.set (Text.lower e) s.name owners) r.owners⟩

theorem conflict?_eq_none_iff (r : Registry) (name : String) (es : List String) :
    r.conflict? name es = none ↔ ∀ e ∈ es, ∀ owner, r.owner? e = some owner → owner = name := by
  induction es with
  | nil => simp [conflict?]
  | cons e es ih =>
    rw [conflict?, List.forall_mem_cons]
    cases howner : r.owner? e with
    | none => simpa using ih
    | some owner =>
      by_cases h : owner = name
      · simpa [h] using ih
      · simp [h]

theorem register_eq_ok {r r' : Registry} {s : Source} (h : r.register s = .ok r') :
    r.Admits s ∧ r' = r.registered s := by
  unfold register at h
  cases hc : r.conflict? s.name s.extensions with
  | some taken =>
    rw [hc] at h
    cases h
  | none =>
    rw [hc] at h
    refine ⟨?_, by simpa [registered] using h.symm⟩
    intro e he owner howner
    obtain ⟨x, hx, rfl⟩ := List.mem_map.1 he
    exact (conflict?_eq_none_iff r s.name s.extensions).1 hc x hx owner howner

theorem byName?_registered (r : Registry) (s : Source) (name : String) :
    (r.registered s).byName? name = if name = s.name then some s else r.byName? name :=
  Table.lookup_set s.name name s r.sources

theorem lookup_reserve (name e : String) (es : List String) (owners : List (String × String)) :
    (es.foldl (fun owners x => Table.set (Text.lower x) name owners) owners).lookup e =
      if e ∈ es.map Text.lower then some name else owners.lookup e := by
  induction es generalizing owners with
  | nil => simp
  | cons x es ih =>
    rw [List.foldl_cons, ih, Table.lookup_set]
    by_cases hx : e = Text.lower x
    · simp [hx]
    · by_cases hes : e ∈ es.map Text.lower <;> simp [hx, hes]

theorem reserved?_registered (r : Registry) (s : Source) (e : String) :
    (r.registered s).reserved? e = if e ∈ s.lowered then some s.name else r.reserved? e :=
  lookup_reserve s.name e s.extensions r.owners

theorem nodup_reserve (name : String) (es : List String) {owners : List (String × String)}
    (h : (owners.map (·.1)).Nodup) :
    ((es.foldl (fun owners x => Table.set (Text.lower x) name owners) owners).map (·.1)).Nodup := by
  induction es generalizing owners with
  | nil => exact h
  | cons x es ih => exact ih (Table.nodup_set _ _ h)

/-- what holds of the two maps whatever the calls were: no key twice, each source under its own name, and its extensions
reserved for it -/
structure Sound (r : Registry) : Prop where
  sourceKeys : (r.sources.map (·.1)).Nodup
  ownerKeys : (r.owners.map (·.1)).Nodup
  named : ∀ name s, r.byName? name = some s → s.name = name
  holds : ∀ name s, r.byName? name = some s → ∀ e ∈ s.lowered, r.reserved? e = some name

theorem empty_sound : empty.Sound :=
  ⟨List.nodup_nil, List.nodup_nil, fun _ _ h => (nomatch h), fun _ _ h => (nomatch h)⟩

theorem unregister_of_none {r : Registry} {name : String} (h : r.byName? name = none) :
    (r.unregister name).2 = r := by
  simp [unregister, h]

theorem byName?_unregister {r : Registry} (hr : r.Sound) (name other : String) :
    (r.unregister name).2.byName? other = if other = name then none else r.byName? other := by
  cases hs : r.byName? name with
  | none =>
    rw [unregister_of_none hs]
    by_cases h : other = name
    · rw [if_pos h, h, hs]
    · rw [if_neg h]
  | some s =>
    have hdropped : (r.unregister name).2.byName? other = (r.byName? other).filter fun _ => other != name := by
      simp only [unregister, hs]
      exact lookup_filter _ _ hr.sourceKeys
    rw [hdropped]
    by_cases h : other = name
    · cases r.byName? other <;> simp [h, Option.filter]
    · cases r.byName? other <;> simp [h, Option.filter]

theorem reserved?_unregister {r : Registry} (hr : r.Sound) {name : String} {s : Source}
    (hs : r.byName? name = some s) (e : String) :
    (r.unregister name).2.reserved? e = if e ∈ s.lowered then none else r.reserved? e := by
  have hdropped : (r.unregister name).2.reserved? e = (r.reserved? e).filter fun owner =>
      !(owner == name && s.extensions.any fun x => Text.lower x == e) := by
    simp only [unregister, hs]
    exact lookup_filter _ _ hr.ownerKeys
  have hany : (s.extensions.any fun x => Text.lower x == e) = true ↔ e ∈ s.lowered := by
    simp [Source.lowered]
  rw [hdropped]
  by_cases he : e ∈ s.lowered
  · rw [if_pos he, hr.holds name s hs e he]
    simp [hany.2 he]
  · have hno : (s.extensions.any fun x => Text.lower x == e) = false := by
      rw [← Bool.not_eq_true, hany]
      exact he
    rw [if_neg he]
    cases r.reserved? e <;> simp [hno]

/-! ## Runs -/

/-- a call that may change a registry -/
inductive Call where
  | register (s : Source)
  | unregister (name : String)

/-- the registry after a call; one that is refused changes nothing -/
def step (r : Registry) : Call → Registry
  | .register s =>
    match r.register s with
    | .ok r' => r'
    | .error _ => r
  | .unregister name => (r.unregister name).2

/-- the registry after calls on an empty one -/
def run (calls : List Call) : Registry := calls.foldl step empty

/-- what holds of every call of a run and the registry it is made on -/
def Along (P : Registry → Call → Prop) : Registry → List Call → Prop
  | _, [] => True
  | r, c :: calls => P r c ∧ Along P (r.step c) calls

/-- two conditions on calls come to the same along a run if they do where an invariant holds that calls of the second
kind preserve -/
theorem along_congr {P Q : Registry → Call → Prop} {I : Registry → Prop} (hiff : ∀ r c, I r → (P r c ↔ Q r c))
    (hkeep : ∀ r c, I r → Q r c → I (r.step c)) {r : Registry} (hr : I r) (calls : List Call) :
    Along P r calls ↔ Along Q r calls := by
  induction calls generalizing r with
  | nil => exact Iff.rfl
  | cons c calls ih =>
    rw [Along, Along, hiff r c hr]
    exact and_congr_right fun hc => ih (hkeep r c hr hc)

theorem registered_sound {r : Registry} {s : Source} (hr : r.Sound) (hs : r.Admits s) : (r.registered s).Sound where
  sourceKeys := Table.nodup_set _ _ hr.sourceKeys
  ownerKeys := nodup_reserve _ _ hr.ownerKeys
  named := by
    intro name t ht
    rw [byName?_registered] at ht
    split_ifs at ht with hname
    · cases ht
      exact hname.symm
    · exact hr.named name t ht
  holds := by
    intro name t ht e he
    rw [byName?_registered] at ht
    rw [reserved?_registered]
    split_ifs at ht with hname
    · cases ht
      rw [if_pos he, hname]
    · have hold := hr.holds name t ht e he
      -- an extension of another source is not one of the new source, which would not be admitted
      have hnew : e ∉ s.lowered := fun hc => hname (hs e hc name hold)
      rw [if_neg hnew, hold]

theorem unregister_sound {r : Registry} (hr : r.Sound) (name : String) : (r.unregister name).2.Sound := by
  cases hs : r.byName? name with
  | none =>
    rw [unregister_of_none hs]
    exact hr
  | some s =>
    refine ⟨?_, ?_, ?_, ?_⟩
    · simp only [unregister, hs]
      exact nodup_filter _ hr.sourceKeys
    · simp only [unregister, hs]
      exact nodup_filter _ hr.ownerKeys
    · intro other t ht
      rw [byName?_unregister hr] at ht
      split_ifs at ht
      exact hr.named other t ht
    · intro other t ht e he
      rw [byName?_unregister hr] at ht
      split_ifs at ht with hother
      have hold := hr.holds other t ht e he
      have hkept : e ∉ s.lowered := by
        intro hc
        rw [hr.holds name s hs e hc] at hold
        exact hother (Option.some.inj hold).symm
      rw [reserved?_unregister hr hs, if_neg hkept, hold]

theorem step_sound {r : Registry} (hr : r.Sound) (c : Call) : (r.step c).Sound := by
  cases c with
  | register s =>
    simp only [step]
    split
    · rename_i r' hok
      obtain ⟨hs, rfl⟩ := register_eq_ok hok
      exact registered_sound hr hs
    · exact hr
  | unregister name => exact unregister_sound hr name

theorem run_sound (calls : List Call) : (run calls).Sound := by
  have hfrom : ∀ r : Registry, r.Sound → (calls.foldl step r).Sound := by
    induction calls with
    | nil => exact fun r hr => hr
    | cons c calls ih => exact fun r hr => ih (r.step c) (step_sound hr c)
  exact hfrom empty empty_sound

/-! ## Consistency -/

/-- a registered source lists the extension, compared in lower case -/
def Lists (r : Registry) (e : String) : Prop := ∃ name s, r.byName? name = some s ∧ e ∈ s.lowered

/-- the two maps say the same about files, extensions and names -/
structure Consistent (r : Registry) : Prop where
  supported : ∀ p, r.isSupported p = true ↔ (r.sourceFor? p).isSome = true
  listed : ∀ e, e ∈ r.extensions ↔ r.Lists e
  free : ∀ name, r.byName? name = none → ∀ e, r.reserved? e ≠ some name

/-- every extension is reserved for a source that lists it -/
def Current (r : Registry) : Prop :=
  ∀ e name, r.reserved? e = some name → ∃ s, r.byName? name = some s ∧ e ∈ s.lowered

/-- no extension of a file is reserved for the empty name -/
def Titled (r : Registry) : Prop := ∀ p : Path, r.reserved? (Text.lower p.suffix) ≠ some ""

theorem mem_extensions_iff (r : Registry) (e : String) : e ∈ r.extensions ↔ (r.reserved? e).isSome = true := by
  rw [extensions, List.mem_mergeSort, Table.mem_names_iff]
  rfl

theorem isSupported_of_sourceFor? {r : Registry} {p : Path} (h : (r.sourceFor? p).isSome = true) :
    r.isSupported p = true := by
  unfold sourceFor? at h
  unfold isSupported
  cases howner : r.owner? p.suffix with
  | none => simp [howner] at h
  | some name => rfl

theorem mem_extensions_of_lists {r : Registry} (hr : r.Sound) {e : String} (h : r.Lists e) : e ∈ r.extensions := by
  obtain ⟨name, s, hs, he⟩ := h
  rw [mem_extensions_iff, hr.holds name s hs e he]
  rfl

theorem consistent_iff {r : Registry} (hr : r.Sound) : r.Consistent ↔ r.Current ∧ r.Titled := by
  constructor
  · intro h
    refine ⟨?_, ?_⟩
    · intro e name hname
      have hmem : e ∈ r.extensions := by
        rw [mem_extensions_iff, hname]
        rfl
      obtain ⟨other, s, hs, he⟩ := (h.listed e).1 hmem
      -- the source that lists the extension is the one it is reserved for
      have hother := hr.holds other s hs e he
      rw [hname] at hother
      cases hother
      exact ⟨s, hs, he⟩
    · intro p hp
      have howner : r.owner? p.suffix = some "" := hp
      have hfound := (h.supported p).1 (by simp [isSupported, howner])
      simp [sourceFor?, howner] at hfound
  · rintro ⟨hcurrent, htitled⟩
    refine ⟨?_, ?_, ?_⟩
    · intro p
      refine ⟨?_, isSupported_of_sourceFor?⟩
      intro hp
      cases howner : r.owner? p.suffix with
      | none => simp [isSupported, howner] at hp
      | some name =>
        obtain ⟨s, hs, -⟩ := hcurrent _ name howner
        have hname : name ≠ "" := by
          rintro rfl
          exact htitled p howner
        simp [sourceFor?, howner, hname, hs]
    · intro e
      refine ⟨?_, mem_extensions_of_lists hr⟩
      intro he
      rw [mem_extensions_iff] at he
      obtain ⟨name, hname⟩ := Option.isSome_iff_exists.1 he
      obtain ⟨s, hs, hmem⟩ := hcurrent e name hname
      exact ⟨name, s, hs, hmem⟩
    · intro name hnone e he
      obtain ⟨s, hs, -⟩ := hcurrent e name he
      rw [hnone] at hs
      cases hs

theorem empty_consistent : empty.Consistent :=
  (consistent_iff empty_sound).2 ⟨fun _ _ h => (nomatch h), fun _ h => (nomatch h)⟩

/-- a source replaces the one of its name without taking an extension away -/
def Covers (r : Registry) (s : Source) : Prop :=
  ∀ old, r.byName? s.name = some old → ∀ e ∈ old.lowered, e ∈ s.lowered

/-- a source without a name has no extension that a file can have -/
def Spares (s : Source) : Prop := s.name = "" → ∀ e ∈ s.lowered, ∀ p : Path, Text.lower p.suffix ≠ e

/-- a call that keeps the two maps in step: a registration, if it is accepted, takes no extension away from its name
and gives none that a file can have to the empty name -/
def Keeps (r : Registry) : Call → Prop
  | .register s => ∀ r', r.register s = .ok r' → r.Covers s ∧ Spares s
  | .unregister _ => True

theorem current_registered_iff {r : Registry} {s : Source} (hr : r.Sound) (h : r.Current) :
    (r.registered s).Current ↔ r.Covers s := by
  constructor
  · intro hnew old hold e he
    by_contra hc
    -- an extension that is taken away stays reserved for the name, and no source lists it
    have hstale : (r.registered s).reserved? e = some s.name := by
      rw [reserved?_registered, if_neg hc]
      exact hr.holds s.name old hold e he
    obtain ⟨t, ht, hmem⟩ := hnew e s.name hstale
    rw [byName?_registered, if_pos rfl] at ht
    cases ht
    exact hc hmem
  · intro hcovers e name hname
    rw [reserved?_registered] at hname
    rw [byName?_registered]
    split_ifs at hname with he
    · cases hname
      exact ⟨s, if_pos rfl, he⟩
    · obtain ⟨t, ht, hmem⟩ := h e name hname
      have hne : name ≠ s.name := by
        rintro rfl
        exact he (hcovers t ht e hmem)
      exact ⟨t, by rw [if_neg hne]; exact ht, hmem⟩

theorem titled_registered_iff {r : Registry} {s : Source} (h : r.Titled) : (r.registered s).Titled ↔ Spares s := by
  constructor
  · intro hnew hname e he p hp
    refine hnew p ?_
    rw [hp, reserved?_registered, if_pos he, hname]
  · intro hspares p hp
    rw [reserved?_registered] at hp
    split_ifs at hp with he
    · exact hspares (Option.some.inj hp) _ he p rfl
    · exact h p hp

theorem unregister_consistent {r : Registry} (hr : r.Sound) (h : r.Consistent) (name : String) :
    (r.unregister name).2.Consistent := by
  obtain ⟨hcurrent, htitled⟩ := (consistent_iff hr).1 h
  cases hs : r.byName? name with
  | none =>
    rw [unregister_of_none hs]
    exact h
  | some s =>
    refine (consistent_iff (unregister_sound hr name)).2 ⟨?_, ?_⟩
    · intro e other hother
      rw [reserved?_unregister hr hs] at hother
      split_ifs at hother with he
      obtain ⟨t, ht, hmem⟩ := hcurrent e other hother
      -- what is still reserved is not reserved for the dropped name
      have hne : other ≠ name := by
        rintro rfl
        rw [hs] at ht
        cases ht
        exact he hmem
      exact ⟨t, by rw [byName?_unregister hr, if_neg hne]; exact ht, hmem⟩
    · intro p hp
      rw [reserved?_unregister hr hs] at hp
      split_ifs at hp
      exact htitled p hp

/-- from a consistent registry, a call leads to a consistent one exactly if it keeps the maps in step -/
theorem consistent_step_iff {r : Registry} (hr : r.Sound) (h : r.Consistent) (c : Call) :
    (r.step c).Consistent ↔ r.Keeps c := by
  cases c with
  | unregister name => exact ⟨fun _ => trivial, fun _ => unregister_consistent hr h name⟩
  | register s =>
    obtain ⟨hcurrent, htitled⟩ := (consistent_iff hr).1 h
    cases hreg : r.register s with
    | error cause =>
      have hstep : r.step (.register s) = r := by simp [step, hreg]
      rw [hstep]
      have hnone : r.Keeps (.register s) := by
        intro r' hok
        rw [hreg] at hok
        cases hok
      exact ⟨fun _ => hnone, fun _ => h⟩
    | ok r' =>
      obtain ⟨hadmits, rfl⟩ := register_eq_ok hreg
      have hstep : r.step (.register s) = r.registered s := by simp [step, hreg]
      have hparts : (r.registered s).Consistent ↔ r.Covers s ∧ Spares s := by
        rw [consistent_iff (registered_sound hr hadmits), current_registered_iff hr hcurrent,
          titled_registered_iff htitled]
      rw [hstep, hparts]
      exact ⟨fun hkeeps _ _ => hkeeps, fun hkeeps => hkeeps _ hreg⟩

theorem along_consistent_iff {r : Registry} (hr : r.Sound) (h : r.Consistent) (calls : List Call) :
    Along (fun r c => (r.step c).Consistent) r calls ↔ Along Keeps r calls := by
  refine along_congr (I := fun r => r.Sound ∧ r.Consistent) ?_ ?_ ⟨hr, h⟩ calls
  · rintro r c ⟨hr, h⟩
    exact consistent_step_iff hr h c
  · rintro r c ⟨hr, h⟩ hkeeps
    exact ⟨step_sound hr c, (consistent_step_iff hr h c).2 hkeeps⟩

/-- **When the maps of a registry agree.** After any calls, a file with a source is supported and what a registered
source lists is an extension. The converses, and that no extension is reserved for a name that is not registered, hold
after each call of a run exactly if every accepted registration under a name that is taken lists the extensions of the
source it replaces, and no source without a name lists an extension that a file can have. -/
theorem consistent_along_iff (calls : List Call) :
    (∀ p, ((run calls).sourceFor? p).isSome = true → (run calls).isSupported p = true) ∧
    (∀ e, (run calls).Lists e → e ∈ (run calls).extensions) ∧
    (Along (fun r c => (r.step c).Consistent) empty calls ↔ Along Keeps empty calls) :=
  ⟨fun _ => isSupported_of_sourceFor?, fun _ => mem_extensions_of_lists (run_sound calls),
    along_consistent_iff empty_sound empty_consistent calls⟩

/-- a source of one name with two extensions, then with one of them, and then none -/
def narrowing : List Call :=
  [.register ⟨"One", "one", [".a", ".b"], fun _ => .tokens []⟩,
    .register ⟨"One", "one", [".a"], fun _ => .tokens []⟩, .unregister "One"]

/-- **An extension that is taken away stays reserved.** After the name is dropped as well, the file is still supported
and has no source, and the extension is one of the registry, reserved for a name that is not registered. -/
theorem narrowed_inconsistent :
    (run narrowing).isSupported ⟨"", ["x.b"]⟩ = true ∧ (run narrowing).sourceFor? ⟨"", ["x.b"]⟩ = none ∧
    ".b" ∈ (run narrowing).extensions ∧ (run narrowing).reserved? ".b" = some "One" ∧
    (run narrowing).byName? "One" = none ∧ ¬ (run narrowing).Consistent := by
  have hrun : (run narrowing).owners = [(".b", "One")] ∧ (run narrowing).sources.isEmpty = true := by decide +kernel
  have hsuffix : Text.lower (Path.suffix ⟨"", ["x.b"]⟩) = ".b" := by decide +kernel
  have hreserved : (run narrowing).reserved? ".b" = some "One" := by simp [reserved?, hrun.1]
  have hdropped : ∀ name, (run narrowing).byName? name = none := by
    simp [byName?, List.isEmpty_iff.1 hrun.2]
  have howner : (run narrowing).owner? (Path.suffix ⟨"", ["x.b"]⟩) = some "One" := by
    rw [owner?, hsuffix]
    exact hreserved
  have hmem : ".b" ∈ (run narrowing).extensions := by simp [mem_extensions_iff, hreserved]
  have hnone : (run narrowing).sourceFor? ⟨"", ["x.b"]⟩ = none := by simp [sourceFor?, howner, hdropped]
  refine ⟨by simp [isSupported, howner], hnone, hmem, hreserved, hdropped "One", ?_⟩
  intro h
  exact h.free "One" (hdropped "One") ".b" hreserved

end Registry

end ClassNaming
