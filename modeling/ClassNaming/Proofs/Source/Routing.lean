/-
Whether a registry sends a file to a source that lists its extension.

Two places decide it. The registry looks up the name that the extension is reserved for; a source looks among its own
extensions. Both put the extension of the file in lower case first, but only the registry does so with the extensions
that the source lists.

- `sourceFor?_of_matches`: in every registry that calls lead to, a file that a source with a name matches is sent to
  that source.
- `settled_step_iff`: which calls keep the two in agreement.
- `routing_along_iff`: so a run does exactly if each of its calls does.
- `capitals_routed`: a run that does not.
- `agrees_of_lowered`: sources in lower case that share nothing agree with the registry that they are registered in.
-/
import ClassNaming.Proofs.Source.Registration

namespace ClassNaming

/-! ## What a source lists -/

/-- an extension that a file can have is listed in lower case if it is listed in any letter case -/
def Source.Spelled (s : Source) : Prop :=
  ∀ p : Path, Text.lower p.suffix ∈ s.lowered → s.matchesExtension p.suffix = true

/-- the source matches no file -/
def Source.Hidden (s : Source) : Prop := ∀ p : Path, s.matchesExtension p.suffix = false

theorem Source.matches_iff (s : Source) (extension : String) :
    s.matchesExtension extension = true ↔ Text.lower extension ∈ s.extensions := by
  rw [matchesExtension, List.contains_iff_mem]

/-- an extension in lower case is one of those that the source lists in lower case, however the others are written -/
theorem Source.mem_lowered_of_matches {s : Source} {extension : String} (h : s.matchesExtension extension = true) :
    Text.lower extension ∈ s.lowered := by
  have hmem := List.mem_map_of_mem (f := Text.lower) ((s.matches_iff extension).1 h)
  rwa [Text.lower_lower] at hmem

/-- a source that writes its extensions in lower case lists what is reserved for it -/
theorem Source.spelled_of_lowered {s : Source} (h : s.lowered = s.extensions) : s.Spelled := by
  intro p hp
  rw [h] at hp
  exact (s.matches_iff p.suffix).2 hp

namespace Registry

/-! ## Sending a file to a source -/

/-- a file that a source with a name matches is sent to it -/
theorem sourceFor?_of_matches {r : Registry} (hr : r.Sound) {name : String} {s : Source} (hs : r.byName? name = some s)
    (hname : name ≠ "") {p : Path} (hp : s.matchesExtension p.suffix = true) : r.sourceFor? p = some s := by
  have hreserved := hr.holds name s hs _ (Source.mem_lowered_of_matches hp)
  exact (r.sourceFor?_eq_some_iff p s).2 ⟨name, hname, hreserved, hs⟩

/-- files are sent to the sources that match them -/
structure Agrees (r : Registry) : Prop where
  routed : ∀ p s, r.sourceFor? p = some s → s.matchesExtension p.suffix = true
  matched : ∀ p name s, r.byName? name = some s → s.matchesExtension p.suffix = true → r.sourceFor? p = some s

/-- the registry has a source that matches the file wherever the extension of one is reserved, and a source without a
name matches none -/
structure Settled (r : Registry) : Prop where
  listed : ∀ p : Path, ∀ name, name ≠ "" → r.reserved? (Text.lower p.suffix) = some name →
    ∃ s, r.byName? name = some s ∧ s.matchesExtension p.suffix = true
  nameless : ∀ s, r.byName? "" = some s → s.Hidden

theorem empty_settled : empty.Settled := ⟨fun _ _ _ h => (nomatch h), fun _ h => (nomatch h)⟩

theorem Settled.agrees {r : Registry} (hr : r.Sound) (h : r.Settled) : r.Agrees where
  routed := by
    intro p s hs
    obtain ⟨name, hname, hreserved, hfound⟩ := (r.sourceFor?_eq_some_iff p s).1 hs
    obtain ⟨t, ht, hmatches⟩ := h.listed p name hname hreserved
    rw [hfound] at ht
    cases ht
    exact hmatches
  matched := by
    intro p name s hs hp
    have hname : name ≠ "" := by
      rintro rfl
      rw [h.nameless s hs p] at hp
      cases hp
    exact sourceFor?_of_matches hr hs hname hp

/-! ## Calls -/

/-- the source matches the files that the one it replaces did -/
def Inherits (r : Registry) (s : Source) : Prop :=
  ∀ old, r.byName? s.name = some old → ∀ p : Path, old.matchesExtension p.suffix = true →
    s.matchesExtension p.suffix = true

/-- a call that keeps files at sources that match them: a registration, if it is accepted, is of a source that lists in
lower case what is reserved for it and matches what the source it replaces did, or else of one without a name that
matches no file -/
def Fits (r : Registry) : Call → Prop
  | .register s => ∀ r', r.register s = .ok r' → (s.name ≠ "" → s.Spelled ∧ r.Inherits s) ∧ (s.name = "" → s.Hidden)
  | .unregister _ => True

theorem settled_registered {r : Registry} {s : Source} (h : r.Settled)
    (hnamed : s.name ≠ "" → s.Spelled ∧ r.Inherits s) (hhidden : s.name = "" → s.Hidden) : (r.registered s).Settled where
  listed := by
    intro p name hname hreserved
    rw [reserved?_registered] at hreserved
    rw [byName?_registered]
    split_ifs at hreserved with hmem
    · cases hreserved
      exact ⟨s, if_pos rfl, (hnamed hname).1 p hmem⟩
    · obtain ⟨t, ht, hmatches⟩ := h.listed p name hname hreserved
      by_cases hsame : name = s.name
      · -- an extension left over from the source that is replaced
        subst hsame
        exact ⟨s, if_pos rfl, (hnamed hname).2 t ht p hmatches⟩
      · exact ⟨t, by rw [if_neg hsame]; exact ht, hmatches⟩
  nameless := by
    intro t ht
    rw [byName?_registered] at ht
    split_ifs at ht with hempty
    · cases ht
      exact hhidden hempty.symm
    · exact h.nameless t ht

theorem settled_unregister {r : Registry} (hr : r.Sound) (h : r.Settled) (name : String) :
    (r.unregister name).2.Settled := by
  cases hs : r.byName? name with
  | none =>
    rw [unregister_of_none hs]
    exact h
  | some s =>
    refine ⟨?_, ?_⟩
    · intro p other hother hreserved
      rw [reserved?_unregister hr hs] at hreserved
      split_ifs at hreserved with hmem
      obtain ⟨t, ht, hmatches⟩ := h.listed p other hother hreserved
      -- what the dropped source matches is not reserved any more
      have hne : other ≠ name := by
        rintro rfl
        rw [hs] at ht
        cases ht
        exact hmem (Source.mem_lowered_of_matches hmatches)
      exact ⟨t, by rw [byName?_unregister hr, if_neg hne]; exact ht, hmatches⟩
    · intro t ht
      rw [byName?_unregister hr] at ht
      split_ifs at ht
      exact h.nameless t ht

/-- where files are sent to sources that match them, the last registration was of a source that fits -/
theorem fits_of_agrees {r : Registry} {s : Source} (hr : r.Sound) (h : (r.registered s).Agrees) :
    (s.name ≠ "" → s.Spelled ∧ r.Inherits s) ∧ (s.name = "" → s.Hidden) := by
  have hfound : (r.registered s).byName? s.name = some s := by rw [byName?_registered, if_pos rfl]
  -- a file is sent to the source if its extension is reserved for the name, now or from before
  have hsent : ∀ p : Path, s.name ≠ "" →
      Text.lower p.suffix ∈ s.lowered ∨ r.reserved? (Text.lower p.suffix) = some s.name →
      s.matchesExtension p.suffix = true := by
    intro p hname hor
    have hreserved : (r.registered s).reserved? (Text.lower p.suffix) = some s.name := by
      rw [reserved?_registered]
      rcases hor with hmem | hold
      · rw [if_pos hmem]
      · rw [hold, ite_self]
    exact h.routed p s ((sourceFor?_eq_some_iff _ p s).2 ⟨s.name, hname, hreserved, hfound⟩)
  refine ⟨?_, ?_⟩
  · intro hname
    refine ⟨fun p hmem => hsent p hname (Or.inl hmem), ?_⟩
    intro old hold p hmatches
    exact hsent p hname (Or.inr (hr.holds s.name old hold _ (Source.mem_lowered_of_matches hmatches)))
  · intro hempty p
    rw [← Bool.not_eq_true]
    intro hmatches
    -- the registry takes the empty name for no reservation
    have hrouted := h.matched p s.name s hfound hmatches
    obtain ⟨name, hname, hreserved, -⟩ := (sourceFor?_eq_some_iff _ p s).1 hrouted
    rw [reserved?_registered, if_pos (Source.mem_lowered_of_matches hmatches)] at hreserved
    exact hname ((Option.some.inj hreserved).symm.trans hempty)

/-- from a settled registry, a call leads to one where files are at sources that match them exactly if it fits, and that
one is settled as well -/
theorem settled_step_iff {r : Registry} (hr : r.Sound) (h : r.Settled) (c : Call) :
    ((r.step c).Agrees ↔ r.Fits c) ∧ (r.Fits c → (r.step c).Settled) := by
  have hsettled : r.Fits c → (r.step c).Settled := by
    intro hfits
    cases c with
    | unregister name => exact settled_unregister hr h name
    | register s =>
      simp only [step]
      split
      · rename_i r' hok
        obtain ⟨hnamed, hhidden⟩ := hfits r' hok
        obtain ⟨-, rfl⟩ := register_eq_ok hok
        exact settled_registered h hnamed hhidden
      · exact h
  refine ⟨⟨?_, fun hfits => (hsettled hfits).agrees (step_sound hr c)⟩, hsettled⟩
  intro hagrees
  cases c with
  | unregister name => exact trivial
  | register s =>
    intro r' hok
    obtain ⟨-, rfl⟩ := register_eq_ok hok
    have hstep : r.step (.register s) = r.registered s := by simp [step, hok]
    rw [hstep] at hagrees
    exact fits_of_agrees hr hagrees

/-! ## Runs -/

theorem along_agrees_iff {r : Registry} (hr : r.Sound) (h : r.Settled) (calls : List Call) :
    Along (fun r c => (r.step c).Agrees) r calls ↔ Along Fits r calls := by
  refine along_congr (I := fun r => r.Sound ∧ r.Settled) ?_ ?_ ⟨hr, h⟩ calls
  · rintro r c ⟨hr, h⟩
    exact (settled_step_iff hr h c).1
  · rintro r c ⟨hr, h⟩ hfits
    exact ⟨step_sound hr c, (settled_step_iff hr h c).2 hfits⟩

/-- **When routing agrees with the sources.** After any calls, a file that a registered source with a name matches is
sent to that source. The rest, that a file is sent only to a source that matches it and that a source without a name
matches none, holds after each call of a run exactly if every accepted registration is of a source that lists its
extensions in lower case, as far as files can have them, and matches what the source that it replaces did, or of one
without a name that matches no file. -/
theorem routing_along_iff (calls : List Call) :
    (∀ name s, (run calls).byName? name = some s → name ≠ "" → ∀ p : Path, s.matchesExtension p.suffix = true →
      (run calls).sourceFor? p = some s) ∧
    (Along (fun r c => (r.step c).Agrees) empty calls ↔ Along Fits empty calls) :=
  ⟨fun _ _ hs hname _ hp => sourceFor?_of_matches (run_sound calls) hs hname hp,
    along_agrees_iff empty_sound empty_settled calls⟩

/-- a source that lists its extension in capitals -/
def capitals : Source := ⟨"Test", "test", [".ABC"], fun _ => .tokens []⟩

/-- **An extension in capitals is routed and not matched.** The registry sends the file to the source, which does not
match it. -/
theorem capitals_routed :
    (run [.register capitals]).sourceFor? ⟨"", ["x.abc"]⟩ = some capitals ∧
    capitals.matchesExtension (Path.suffix ⟨"", ["x.abc"]⟩) = false ∧ ¬ (run [.register capitals]).Agrees := by
  have hlowered : capitals.lowered = [".abc"] := by decide +kernel
  have hsuffix : Text.lower (Path.suffix ⟨"", ["x.abc"]⟩) = ".abc" := Text.lower_of_small (by decide)
  have hrun : run [.register capitals] = empty.registered capitals := by
    simp [run, step, register_of_admits (empty_admits capitals)]
  have hsent : (run [.register capitals]).sourceFor? ⟨"", ["x.abc"]⟩ = some capitals := by
    refine (sourceFor?_eq_some_iff _ _ _).2 ⟨capitals.name, by decide, ?_, ?_⟩
    · rw [hrun, hsuffix, reserved?_registered, hlowered, if_pos (List.mem_singleton_self _)]
    · rw [hrun, byName?_registered, if_pos rfl]
  have hmisses : capitals.matchesExtension (Path.suffix ⟨"", ["x.abc"]⟩) = false := by
    rw [Source.matchesExtension, hsuffix]
    decide
  refine ⟨hsent, hmisses, ?_⟩
  intro hagrees
  rw [hagrees.routed _ _ hsent] at hmisses
  cases hmisses

/-! ## Sources in lower case -/

/-- sources that are apart and write their extensions in lower case are sent the files that they match -/
theorem agrees_of_lowered {sources : List Source} (hapart : sources.Pairwise Apart)
    (hnamed : ∀ s ∈ sources, s.name ≠ "") (hlowered : ∀ s ∈ sources, s.lowered = s.extensions) {r : Registry}
    (hok : empty.registerAll sources = .ok r) : r.Agrees := by
  have hsound : r.Sound := registerAll_sound empty_sound hok
  rw [registerAll_of_admits hapart fun s _ => empty_admits s] at hok
  cases hok
  refine ⟨?_, ?_⟩
  · intro p s hs
    obtain ⟨hmem, he⟩ := (sourceFor?_foldl_iff hapart hnamed p s).1 hs
    exact Source.spelled_of_lowered (hlowered s hmem) p he
  · intro p name s hs hp
    refine sourceFor?_of_matches hsound hs ?_ hp
    rintro rfl
    rw [byName?_foldl_of_none fun t ht => (hnamed t ht).symm] at hs
    cases hs

end Registry

end ClassNaming
