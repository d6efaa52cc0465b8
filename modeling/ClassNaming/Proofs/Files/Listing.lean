/-
Trees that list the same entries in another order.

A directory lists its entries in some order, each name once. Nothing that is found by name depends on that order.

- `Distinct`: no directory of a tree lists a name twice.
- `Relisted`: two trees differ only in the order in which their directories list their entries.
- `at?_relisted`, `locate_relisted`, `find_relisted`: a path leads to the same in both, up to the order of entries.
-/
import Mathlib.Data.List.Nodup
import Mathlib.Data.List.Perm.Basic
import ClassNaming.Files.Tree

namespace ClassNaming

namespace Tree

/-- no directory lists a name twice, at any depth -/
inductive Distinct : Tree → Prop where
  | file (content : List UInt8) : Distinct (.file content)
  | dir {entries : List (String × Tree)} (names : (entries.map (·.1)).Nodup)
      (below : ∀ e ∈ entries, Distinct e.2) : Distinct (.dir entries)

/-- the trees differ only in the order in which directories list their entries -/
inductive Relisted : Tree → Tree → Prop where
  | refl (t : Tree) : Relisted t t
  | order {entries others : List (String × Tree)} (h : entries.Perm others) : Relisted (.dir entries) (.dir others)
  | entry {before after : List (String × Tree)} {name : String} {t u : Tree} (h : Relisted t u) :
      Relisted (.dir (before ++ (name, t) :: after)) (.dir (before ++ (name, u) :: after))
  | trans {t u v : Tree} (h : Relisted t u) (h' : Relisted u v) : Relisted t v

/-! ## Entries by name -/

/-- where no name stands twice, an entry is what is found under its name -/
theorem mem_iff_lookup {entries : List (String × Tree)} (h : (entries.map (·.1)).Nodup) {name : String} {t : Tree} :
    (name, t) ∈ entries ↔ entries.lookup name = some t := by
  induction entries with
  | nil => simp
  | cons e entries ih =>
    obtain ⟨n, u⟩ := e
    rw [List.map_cons, List.nodup_cons] at h
    obtain ⟨hnew, hrest⟩ := h
    rw [List.mem_cons, List.lookup_cons, ih hrest]
    by_cases hname : name = n
    · subst hname
      have hnone : (name, t) ∉ entries := fun hc => hnew (List.mem_map.2 ⟨(name, t), hc, rfl⟩)
      rw [ih hrest] at hnone
      simp [hnone, eq_comm]
    · have hother : (name == n) = false := beq_eq_false_iff_ne.2 hname
      simp [hname, hother]

theorem lookup_perm {entries others : List (String × Tree)} (h : entries.Perm others)
    (hnames : (entries.map (·.1)).Nodup) (name : String) : others.lookup name = entries.lookup name := by
  have hothers : (others.map (·.1)).Nodup := (h.map _).nodup_iff.1 hnames
  apply Option.ext
  intro t
  rw [← mem_iff_lookup hothers, ← mem_iff_lookup hnames, h.mem_iff]

theorem Distinct.of_child? {t v : Tree} (ht : t.Distinct) {name : String} (h : t.child? name = some v) :
    v.Distinct := by
  cases ht with
  | file content => cases h
  | dir hnames hbelow => exact hbelow (name, v) ((mem_iff_lookup hnames).2 h)

theorem Distinct.of_at? {t v : Tree} (ht : t.Distinct) {names : List String} (h : t.at? names = some v) :
    v.Distinct := by
  induction names generalizing t with
  | nil =>
    obtain rfl : t = v := by simpa [at?] using h
    exact ht
  | cons name names ih =>
    obtain ⟨u, hu, hv⟩ := Option.bind_eq_some_iff.1 h
    exact ih (ht.of_child? hu) hv

/-! ## Another order -/

theorem Relisted.distinct {t u : Tree} (h : Relisted t u) (ht : t.Distinct) : u.Distinct := by
  induction h with
  | refl t => exact ht
  | order h =>
    cases ht with
    | dir hnames hbelow => exact .dir ((h.map _).nodup_iff.1 hnames) fun e he => hbelow e (h.mem_iff.2 he)
  | @entry before after name t u h ih =>
    cases ht with
    | dir hnames hbelow =>
      refine .dir (by simpa using hnames) ?_
      intro e he
      rcases List.mem_append.1 he with hbefore | hafter
      · exact hbelow e (List.mem_append_left _ hbefore)
      · rcases List.mem_cons.1 hafter with rfl | hafter
        · exact ih (hbelow (name, t) (List.mem_append_right _ (List.mem_cons_self ..)))
        · exact hbelow e (List.mem_append_right _ (List.mem_cons_of_mem _ hafter))
  | trans _ _ ih ih' => exact ih' (ih ht)

/-- a file stays the file it is, and a directory a directory -/
theorem Relisted.cases {t u : Tree} (h : Relisted t u) :
    (∃ content, t = .file content ∧ u = .file content) ∨ ∃ entries others, t = .dir entries ∧ u = .dir others := by
  induction h with
  | refl t =>
    cases t with
    | file content => exact .inl ⟨content, rfl, rfl⟩
    | dir entries => exact .inr ⟨entries, entries, rfl, rfl⟩
  | order _ => exact .inr ⟨_, _, rfl, rfl⟩
  | entry _ _ => exact .inr ⟨_, _, rfl, rfl⟩
  | trans _ _ ih ih' =>
    rcases ih with ⟨content, rfl, rfl⟩ | ⟨entries, others, rfl, rfl⟩
    · exact .inl (by simpa using ih')
    · exact .inr (by simpa using ih')

theorem rel_refl (o : Option Tree) : Option.Rel Relisted o o := by
  cases o with
  | none => exact .none
  | some t => exact .some (.refl t)

theorem rel_trans {a b c : Option Tree} (hab : Option.Rel Relisted a b) (hbc : Option.Rel Relisted b c) :
    Option.Rel Relisted a c := by
  cases hab with
  | none => exact hbc
  | some hfirst =>
    cases hbc with
    | some hsecond => exact .some (hfirst.trans hsecond)

theorem child?_relisted {t u : Tree} (h : Relisted t u) (ht : t.Distinct) (name : String) :
    Option.Rel Relisted (t.child? name) (u.child? name) := by
  induction h with
  | refl t => exact rel_refl _
  | order h =>
    cases ht with
    | dir hnames _ =>
      rw [child?, child?, lookup_perm h hnames]
      exact rel_refl _
  | @entry before after n t u h _ =>
    rw [child?, child?, List.lookup_append, List.lookup_append, List.lookup_cons, List.lookup_cons]
    cases before.lookup name with
    | some v => exact .some (.refl v)
    | none =>
      simp only [Option.none_or]
      split
      · exact .some h
      · exact rel_refl _
  | trans h _ ih ih' => exact rel_trans (ih ht) (ih' (h.distinct ht))

theorem at?_relisted {t u : Tree} (h : Relisted t u) (ht : t.Distinct) (names : List String) :
    Option.Rel Relisted (t.at? names) (u.at? names) := by
  induction names generalizing t u with
  | nil => exact .some h
  | cons name names ih =>
    have hchild := child?_relisted h ht name
    have hbelow : ∀ v, t.child? name = some v → v.Distinct := fun v hv => ht.of_child? hv
    rw [at?, at?]
    generalize t.child? name = a at hchild hbelow
    generalize u.child? name = b at hchild
    cases hchild with
    | none => exact .none
    | @some v w hvw => exact ih hvw (hbelow v rfl)

/-- the same names lead back and forth in both -/
theorem locate_relisted {t u : Tree} (h : Relisted t u) (ht : t.Distinct) (trail names : List String) :
    u.locate trail names = t.locate trail names := by
  induction names generalizing trail with
  | nil => rfl
  | cons name names ih =>
    have hat := at?_relisted h ht trail
    have hbelow : ∀ v, t.at? trail = some v → v.Distinct := fun v hv => ht.of_at? hv
    rw [locate, locate]
    generalize t.at? trail = a at hat hbelow
    generalize u.at? trail = b at hat
    cases hat with
    | none => rfl
    | @some v w hvw =>
      rcases hvw.cases with ⟨content, rfl, rfl⟩ | ⟨entries, others, rfl, rfl⟩
      · rfl
      · have hsome : (others.lookup name).isSome = (entries.lookup name).isSome := by
          have hchild := child?_relisted hvw (hbelow _ rfl) name
          simp only [child?] at hchild
          generalize entries.lookup name = c at hchild
          generalize others.lookup name = d at hchild
          cases hchild <;> rfl
        simp only [hsome, ih]

theorem find_relisted {t u : Tree} (h : Relisted t u) (ht : t.Distinct) (p : Path) :
    (∃ e, t.find p = .error e ∧ u.find p = .error e) ∨
      ∃ v w, t.find p = .ok v ∧ u.find p = .ok w ∧ Relisted v w ∧ v.Distinct := by
  unfold find
  rw [locate_relisted h ht]
  split_ifs with hanchor
  · exact .inl ⟨.missing, rfl, rfl⟩
  cases hl : t.locate [] p.parts with
  | error e => exact .inl ⟨e, rfl, rfl⟩
  | ok trail =>
    have hat := at?_relisted h ht trail
    have hbelow : ∀ v, t.at? trail = some v → v.Distinct := fun v hv => ht.of_at? hv
    simp only [bind, Except.bind, pure, Except.pure]
    generalize t.at? trail = a at hat hbelow
    generalize u.at? trail = b at hat
    cases hat with
    | none => exact .inl ⟨.missing, rfl, rfl⟩
    | @some v w hvw => exact .inr ⟨v, w, rfl, rfl, hvw, hbelow v rfl⟩

theorem Distinct.of_find {t v : Tree} (ht : t.Distinct) {p : Path} (h : t.find p = .ok v) : v.Distinct := by
  rcases find_relisted (.refl t) ht p with ⟨e, herror, -⟩ | ⟨u, -, hu, -, -, hdistinct⟩
  · rw [h] at herror
    cases herror
  · rw [h] at hu
    cases hu
    exact hdistinct

end Tree

end ClassNaming
