/-
Registration is all or nothing, and the order of registrations does not matter.

A registration looks at every extension of the source before it writes anything. The two loops are said here one write
after the other, over a registry that an error leaves as it is at that moment.

- `registering_eq`: the writes of a registration come to what `register` returns, and a refused one has written nothing.
- `register_error_iff`, `register_ok`: when a source is refused, and what the maps say if it is not.
- `sourceFor?_registerAll_iff`: sources that share neither name nor extension are all registered, and a file goes to the
  one that has its extension.
- `registration_all_or_nothing`: the whole, with the order of such sources shown in no answer.
-/
import Mathlib.Data.List.Pairwise
import Mathlib.Data.List.Perm.Basic
import ClassNaming.Proofs.Source.Reservations
import ClassNaming.Proofs.Text.LowerCase

namespace ClassNaming

namespace Registry

/-! ## One write after the other -/

/-- the first loop: stop at an extension that is reserved for another name -/
def checking (name : String) : List String → EStateM Fault Registry Unit
  | [] => pure ()
  | e :: es => do
    match (← get).owner? e with
    | some owner => if owner = name then checking name es else throw (.extensionTaken e owner name)
    | none => checking name es

/-- the second loop: reserve each extension -/
def reserving (name : String) : List String → EStateM Fault Registry Unit
  | [] => pure ()
  | e :: es => do
    modify fun r => { r with owners := Table.set (Text.lower e) name r.owners }
    reserving name es

/-- a registration as it is carried out on the registry -/
def registering (s : Source) : EStateM Fault Registry Unit := do
  checking s.name s.extensions
  modify fun r => { r with sources := Table.set s.name s r.sources }
  reserving s.name s.extensions

theorem checking_eq (r : Registry) (name : String) (es : List String) :
    checking name es r = match r.conflict? name es with
      | some (e, owner) => .error (.extensionTaken e owner name) r
      | none => .ok () r := by
  induction es with
  | nil => rfl
  | cons e es ih =>
    have hget : checking name (e :: es) r = (match r.owner? e with
        | some owner => if owner = name then checking name es else throw (.extensionTaken e owner name)
        | none => checking name es : EStateM Fault Registry Unit) r := rfl
    rw [hget, conflict?]
    cases howner : r.owner? e with
    | none => exact ih
    | some owner =>
      by_cases hname : owner = name
      · simp only [hname, if_true, beq_self_eq_true]
        exact ih
      · simp only [hname, if_false, beq_eq_false_iff_ne.2 hname, Bool.false_eq_true]
        rfl

theorem reserving_eq (r : Registry) (name : String) (es : List String) :
    reserving name es r =
      .ok () ⟨r.sources, es.foldl (fun owners e => Table.set (Text.lower e) name owners) r.owners⟩ := by
  induction es generalizing r with
  | nil => rfl
  | cons e es ih => exact ih { r with owners := Table.set (Text.lower e) name r.owners }

/-- an accepted registration has written what `register` returns, and a refused one nothing -/
theorem registering_eq (r : Registry) (s : Source) :
    registering s r = match r.register s with
      | .ok r' => .ok () r'
      | .error cause => .error cause r := by
  have hchecked : registering s r = match checking s.name s.extensions r with
      | .ok _ r' => reserving s.name s.extensions { r' with sources := Table.set s.name s r'.sources }
      | .error cause r' => .error cause r' := by
    simp only [registering, bind, EStateM.bind]
    cases checking s.name s.extensions r <;> rfl
  rw [hchecked, checking_eq, register]
  cases hconflict : r.conflict? s.name s.extensions with
  | some taken => rfl
  | none => exact reserving_eq _ s.name s.extensions

/-! ## What comes of a registration -/

/-- an extension of the source is reserved for another name -/
def Clashes (r : Registry) (s : Source) : Prop := ∃ e ∈ s.lowered, ∃ owner, r.reserved? e = some owner ∧ owner ≠ s.name

theorem register_of_admits {r : Registry} {s : Source} (h : r.Admits s) : r.register s = .ok (r.registered s) := by
  have hnone : r.conflict? s.name s.extensions = none := by
    refine (conflict?_eq_none_iff r s.name s.extensions).2 ?_
    intro e he owner howner
    exact h (Text.lower e) (List.mem_map_of_mem he) owner howner
  rw [register, hnone]
  rfl

/-- a source is admitted after another one if the two share no extension -/
theorem registered_admits {r : Registry} {s other : Source} (h : r.Admits other)
    (hapart : ∀ e ∈ other.lowered, e ∉ s.lowered) : (r.registered s).Admits other := by
  intro e he owner howner
  rw [reserved?_registered, if_neg (hapart e he)] at howner
  exact h e he owner howner

theorem empty_admits (s : Source) : empty.Admits s := by
  intro e _ owner howner
  cases howner

theorem not_admits_iff (r : Registry) (s : Source) : ¬ r.Admits s ↔ r.Clashes s := by
  unfold Clashes Admits
  push Not
  rfl

theorem conflict?_eq_some {r : Registry} {name e owner : String} {es : List String}
    (h : r.conflict? name es = some (e, owner)) : e ∈ es ∧ r.owner? e = some owner ∧ owner ≠ name := by
  induction es with
  | nil => cases h
  | cons x es ih =>
    have hrest : r.conflict? name es = some (e, owner) → e ∈ x :: es ∧ r.owner? e = some owner ∧ owner ≠ name := by
      intro hlater
      obtain ⟨hmem, howner⟩ := ih hlater
      exact ⟨List.mem_cons_of_mem x hmem, howner⟩
    rw [conflict?] at h
    cases hx : r.owner? x with
    | none =>
      rw [hx] at h
      exact hrest h
    | some other =>
      rw [hx] at h
      by_cases hname : other = name
      · simp only [hname, beq_self_eq_true, if_true] at h
        exact hrest h
      · simp only [beq_eq_false_iff_ne.2 hname, Bool.false_eq_true, if_false] at h
        cases h
        exact ⟨List.mem_cons_self, hx, hname⟩

/-- a refusal names an extension of the source and the name that it is reserved for -/
theorem register_eq_error {r : Registry} {s : Source} {cause : Fault} (h : r.register s = .error cause) :
    ∃ e ∈ s.extensions, ∃ owner, r.owner? e = some owner ∧ owner ≠ s.name ∧
      cause = .extensionTaken e owner s.name := by
  unfold register at h
  cases hconflict : r.conflict? s.name s.extensions with
  | none =>
    rw [hconflict] at h
    cases h
  | some taken =>
    rw [hconflict] at h
    cases h
    obtain ⟨hmem, howner, hname⟩ := conflict?_eq_some hconflict
    exact ⟨taken.1, hmem, taken.2, howner, hname, rfl⟩

theorem register_error_iff (r : Registry) (s : Source) : (∃ cause, r.register s = .error cause) ↔ r.Clashes s := by
  rw [← not_admits_iff]
  constructor
  · rintro ⟨cause, hcause⟩ hadmits
    rw [register_of_admits hadmits] at hcause
    cases hcause
  · intro hrefused
    cases hreg : r.register s with
    | error cause => exact ⟨cause, rfl⟩
    | ok r' => exact absurd (register_eq_ok hreg).1 hrefused

/-- the maps after a registration: the extensions of the source are reserved for its name, the name is that of the
source, and every other extension and every other name stand as before -/
theorem register_ok {r r' : Registry} {s : Source} (h : r.register s = .ok r') :
    (∀ e, r'.reserved? e = if e ∈ s.lowered then some s.name else r.reserved? e) ∧
    (∀ name, r'.byName? name = if name = s.name then some s else r.byName? name) := by
  obtain ⟨-, rfl⟩ := register_eq_ok h
  exact ⟨reserved?_registered r s, byName?_registered r s⟩

/-! ## Sources in any order -/

theorem owner?_eq (r : Registry) (extension : String) : r.owner? extension = r.reserved? (Text.lower extension) := rfl

/-- a file is sent to the source of the name that its extension is reserved for, unless that is the empty one -/
theorem sourceFor?_eq_some_iff (r : Registry) (p : Path) (s : Source) :
    r.sourceFor? p = some s ↔
      ∃ name, name ≠ "" ∧ r.reserved? (Text.lower p.suffix) = some name ∧ r.byName? name = some s := by
  rw [sourceFor?, owner?_eq]
  cases howner : r.reserved? (Text.lower p.suffix) with
  | none => simp
  | some name =>
    by_cases hname : name = ""
    · simp [hname]
    · simp [hname]

theorem registerAll_cons {r r' : Registry} {s : Source} (h : r.register s = .ok r') (rest : List Source) :
    r.registerAll (s :: rest) = r'.registerAll rest := by
  rw [registerAll, h]
  rfl

theorem registerAll_sound {r r' : Registry} (hr : r.Sound) {sources : List Source}
    (h : r.registerAll sources = .ok r') : r'.Sound := by
  induction sources generalizing r with
  | nil =>
    cases h
    exact hr
  | cons s rest ih =>
    cases hreg : r.register s with
    | error cause =>
      rw [registerAll, hreg] at h
      cases h
    | ok next =>
      rw [registerAll_cons hreg] at h
      obtain ⟨hadmits, rfl⟩ := register_eq_ok hreg
      exact ih (registered_sound hr hadmits) h

/-- two sources share neither name nor extension -/
def Apart (s t : Source) : Prop := s.name ≠ t.name ∧ ∀ e ∈ s.lowered, e ∉ t.lowered

theorem Apart.symm {s t : Source} (h : Apart s t) : Apart t s := ⟨h.1.symm, fun e he hmem => h.2 e hmem he⟩

variable {sources : List Source}

/-- sources that a registry admits and that are apart are all registered -/
theorem registerAll_of_admits (hapart : sources.Pairwise Apart) {r : Registry} (h : ∀ s ∈ sources, r.Admits s) :
    r.registerAll sources = .ok (sources.foldl registered r) := by
  induction sources generalizing r with
  | nil => rfl
  | cons s rest ih =>
    obtain ⟨hfirst, hrest⟩ := List.pairwise_cons.1 hapart
    rw [registerAll_cons (register_of_admits (h s List.mem_cons_self)), List.foldl_cons]
    apply ih hrest
    intro t ht
    apply registered_admits (h t (List.mem_cons_of_mem s ht))
    intro e he hmem
    exact (hfirst t ht).2 e hmem he

/-- an extension that none of the sources has stays as it was -/
theorem reserved?_foldl_of_none {e : String} (h : ∀ s ∈ sources, e ∉ s.lowered) (r : Registry) :
    (sources.foldl registered r).reserved? e = r.reserved? e := by
  induction sources generalizing r with
  | nil => rfl
  | cons s rest ih =>
    rw [List.foldl_cons, ih (fun t ht => h t (List.mem_cons_of_mem s ht)), reserved?_registered,
      if_neg (h s List.mem_cons_self)]

theorem reserved?_foldl_of_mem (hapart : sources.Pairwise Apart) {s : Source} (hs : s ∈ sources) {e : String}
    (he : e ∈ s.lowered) (r : Registry) : (sources.foldl registered r).reserved? e = some s.name := by
  induction sources generalizing r with
  | nil => cases hs
  | cons t rest ih =>
    obtain ⟨hfirst, hrest⟩ := List.pairwise_cons.1 hapart
    rw [List.foldl_cons]
    rcases List.mem_cons.1 hs with rfl | hlater
    · -- no later source takes the extension over
      have hnone : ∀ u ∈ rest, e ∉ u.lowered := fun u hu => (hfirst u hu).2 e he
      rw [reserved?_foldl_of_none hnone, reserved?_registered, if_pos he]
    · exact ih hrest hlater _

theorem byName?_foldl_of_none {name : String} (h : ∀ s ∈ sources, name ≠ s.name) (r : Registry) :
    (sources.foldl registered r).byName? name = r.byName? name := by
  induction sources generalizing r with
  | nil => rfl
  | cons s rest ih =>
    rw [List.foldl_cons, ih (fun t ht => h t (List.mem_cons_of_mem s ht)), byName?_registered,
      if_neg (h s List.mem_cons_self)]

theorem byName?_foldl_of_mem (hapart : sources.Pairwise Apart) {s : Source} (hs : s ∈ sources) (r : Registry) :
    (sources.foldl registered r).byName? s.name = some s := by
  induction sources generalizing r with
  | nil => cases hs
  | cons t rest ih =>
    obtain ⟨hfirst, hrest⟩ := List.pairwise_cons.1 hapart
    rw [List.foldl_cons]
    rcases List.mem_cons.1 hs with rfl | hlater
    · rw [byName?_foldl_of_none fun u hu => (hfirst u hu).1, byName?_registered, if_pos rfl]
    · exact ih hrest hlater _

/-- a registry that sources have been registered in sends a file to the one that has its extension -/
theorem sourceFor?_foldl_iff (hapart : sources.Pairwise Apart) (hnamed : ∀ s ∈ sources, s.name ≠ "") (p : Path)
    (s : Source) :
    (sources.foldl registered empty).sourceFor? p = some s ↔ s ∈ sources ∧ Text.lower p.suffix ∈ s.lowered := by
  rw [sourceFor?_eq_some_iff]
  constructor
  · rintro ⟨name, -, hreserved, hfound⟩
    by_cases hlisted : ∃ t ∈ sources, Text.lower p.suffix ∈ t.lowered
    · obtain ⟨t, ht, hmem⟩ := hlisted
      rw [reserved?_foldl_of_mem hapart ht hmem] at hreserved
      cases hreserved
      rw [byName?_foldl_of_mem hapart ht] at hfound
      cases hfound
      exact ⟨ht, hmem⟩
    · have hnone : ∀ t ∈ sources, Text.lower p.suffix ∉ t.lowered := fun t ht hmem => hlisted ⟨t, ht, hmem⟩
      rw [reserved?_foldl_of_none hnone] at hreserved
      cases hreserved
  · rintro ⟨hs, he⟩
    exact ⟨s.name, hnamed s hs, reserved?_foldl_of_mem hapart hs he empty, byName?_foldl_of_mem hapart hs empty⟩

/-- whatever order sources that are apart come in, all are registered, and each file goes to the one that has its
extension -/
theorem sourceFor?_registerAll_iff (hapart : sources.Pairwise Apart) (hnamed : ∀ s ∈ sources, s.name ≠ "")
    {order : List Source} (horder : order.Perm sources) :
    ∃ r, empty.registerAll order = .ok r ∧
      ∀ p s, r.sourceFor? p = some s ↔ s ∈ sources ∧ Text.lower p.suffix ∈ s.lowered := by
  have hapart' : order.Pairwise Apart := (horder.pairwise_iff Apart.symm).2 hapart
  have hnamed' : ∀ s ∈ order, s.name ≠ "" := fun s hs => hnamed s (horder.mem_iff.1 hs)
  refine ⟨_, registerAll_of_admits hapart' fun s _ => empty_admits s, ?_⟩
  intro p s
  rw [sourceFor?_foldl_iff hapart' hnamed', horder.mem_iff]

/-- **Registration is all or nothing, and its order does not matter.** A registration is refused exactly if an extension
of the source is reserved for another name. The error names such an extension and its owner, and nothing has been
written by then. Otherwise the two maps change for the extensions and the name of the source only. Sources with names of
their own and extensions of their own are all registered in any order, and every order leads to the same answers. -/
theorem registration_all_or_nothing :
    (∀ (r : Registry) (s : Source),
      ((∃ cause, r.register s = .error cause) ↔ r.Clashes s) ∧
      (∀ cause, r.register s = .error cause → registering s r = .error cause r ∧
        ∃ e ∈ s.extensions, ∃ owner, r.owner? e = some owner ∧ owner ≠ s.name ∧
          cause = .extensionTaken e owner s.name) ∧
      (∀ r', r.register s = .ok r' → registering s r = .ok () r' ∧
        (∀ e, r'.reserved? e = if e ∈ s.lowered then some s.name else r.reserved? e) ∧
        (∀ name, r'.byName? name = if name = s.name then some s else r.byName? name))) ∧
    (∀ sources : List Source, sources.Pairwise Apart → (∀ s ∈ sources, s.name ≠ "") →
      ∃ answer : Path → Option Source,
        (∀ p s, answer p = some s ↔ s ∈ sources ∧ Text.lower p.suffix ∈ s.lowered) ∧
        ∀ order : List Source, order.Perm sources →
          ∃ r, empty.registerAll order = .ok r ∧ ∀ p, r.sourceFor? p = answer p) := by
  refine ⟨?_, ?_⟩
  · intro r s
    refine ⟨register_error_iff r s, ?_, ?_⟩
    · intro cause hcause
      refine ⟨?_, register_eq_error hcause⟩
      rw [registering_eq, hcause]
    · intro r' hok
      refine ⟨?_, register_ok hok⟩
      rw [registering_eq, hok]
  · intro sources hapart hnamed
    obtain ⟨first, -, hfirst⟩ := sourceFor?_registerAll_iff hapart hnamed (List.Perm.refl sources)
    refine ⟨first.sourceFor?, hfirst, ?_⟩
    intro order horder
    obtain ⟨r, hok, hr⟩ := sourceFor?_registerAll_iff hapart hnamed horder
    refine ⟨r, hok, ?_⟩
    intro p
    ext s
    rw [hr p s, hfirst p s]

theorem lowered_of_small {s : Source} (h : (s.extensions.all fun e => e.toList.all Text.isSmall) = true) :
    s.lowered = s.extensions := by
  refine (List.map_congr_left ?_).trans (List.map_id _)
  intro e he
  exact Text.lower_of_small (List.all_eq_true.1 h e he)

/-- two sources with extensions of their own, and one that shares its second extension with the first -/
def plainSource : Source := ⟨"Plain", "plain", [".a"], fun _ => .tokens []⟩

def otherSource : Source := ⟨"Other", "other", [".b", ".c"], fun _ => .tokens []⟩

def lateSource : Source := ⟨"Late", "late", [".d", ".a"], fun _ => .tokens []⟩

/-- a registration that is refused at its second extension, and two that come in either order -/
theorem registration_late_or_reversed :
    (∃ cause, registering lateSource (empty.registered plainSource) = .error cause (empty.registered plainSource)) ∧
    ∃ r r', empty.registerAll [plainSource, otherSource] = .ok r ∧
      empty.registerAll [otherSource, plainSource] = .ok r' ∧ ∀ p, r.sourceFor? p = r'.sourceFor? p := by
  have hplain : plainSource.lowered = [".a"] := lowered_of_small (by decide)
  have hother : otherSource.lowered = [".b", ".c"] := lowered_of_small (by decide)
  have hlate : lateSource.lowered = [".d", ".a"] := lowered_of_small (by decide)
  have hclash : (empty.registered plainSource).Clashes lateSource := by
    refine ⟨".a", by rw [hlate]; decide, "Plain", ?_, by decide⟩
    rw [reserved?_registered, hplain, if_pos (List.mem_singleton_self _)]
    rfl
  have hapart : [plainSource, otherSource].Pairwise Apart := by
    refine List.pairwise_pair.2 ⟨by decide, ?_⟩
    rw [hplain, hother]
    decide
  have hnamed : ∀ s ∈ [plainSource, otherSource], s.name ≠ "" := by
    simp only [List.forall_mem_cons]
    exact ⟨by decide, by decide, by simp⟩
  obtain ⟨hiff, hrefused, -⟩ := registration_all_or_nothing.1 (empty.registered plainSource) lateSource
  obtain ⟨cause, hcause⟩ := hiff.2 hclash
  obtain ⟨answer, -, hall⟩ := registration_all_or_nothing.2 _ hapart hnamed
  obtain ⟨r, hok, hr⟩ := hall _ (List.Perm.refl _)
  obtain ⟨r', hok', hr'⟩ := hall _ (List.Perm.swap plainSource otherSource [])
  refine ⟨⟨cause, (hrefused cause hcause).1⟩, r, r', hok, hok', ?_⟩
  intro p
  rw [hr p, hr' p]

end Registry

end ClassNaming
