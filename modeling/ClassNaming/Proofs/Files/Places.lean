/-
What happens to the files of a tree when directories are made and a file is written.

Paths are plain here: relative, without two dots, so that a path leads to the chain of its names and nowhere else.

- `bytes?_eq_fileAt`: the bytes of a plain path are those of the file at its names.
- `fileAt_makeDirs`: making directories changes no file.
- `fileAt_writeBytes`: writing changes the file at the path and no other.
-/
import Mathlib.Data.List.Basic
import ClassNaming.Files.Tree
import ClassNaming.Proofs.Table

namespace ClassNaming

/-- relative and without two dots -/
structure Path.IsPlain (p : Path) : Prop where
  relative : p.anchor = ""
  noUp : ".." ∉ p.parts

theorem Path.IsPlain.isEmpty {p : Path} (hp : p.IsPlain) : p.anchor.isEmpty = true := by
  rw [hp.relative]
  rfl

namespace Tree

/-- the bytes of the file at a chain of names, if there is a file -/
def fileAt (t : Tree) (trail : List String) : Option (List UInt8) :=
  match t.at? trail with
  | some (.file content) => some content
  | _ => none

/-- the bytes of the file at a path, if there is a file -/
def bytes? (t : Tree) (p : Path) : Option (List UInt8) := (t.readBytes p).toOption

/-! ## Walking -/

theorem at?_append (t : Tree) (trail names : List String) :
    t.at? (trail ++ names) = (t.at? trail).bind (at? · names) := by
  induction trail generalizing t with
  | nil => rfl
  | cons name trail ih =>
    simp only [List.cons_append, at?]
    cases t.child? name with
    | none => rfl
    | some u => exact ih u

theorem at?_singleton (t : Tree) (name : String) : t.at? [name] = t.child? name := by
  simp only [at?]
  cases t.child? name <;> rfl

/-- nothing stands below a file -/
theorem at?_file {content : List UInt8} {names : List String} (h : names ≠ []) :
    (Tree.file content).at? names = none := by
  cases names with
  | nil => exact absurd rfl h
  | cons name names => rfl

/-- what leads to something is a directory -/
theorem exists_dir_of_at? {t u : Tree} {trail names : List String} (h : t.at? (trail ++ names) = some u)
    (hne : names ≠ []) : ∃ entries, t.at? trail = some (.dir entries) := by
  rw [at?_append] at h
  cases ht : t.at? trail with
  | none => simp [ht] at h
  | some v =>
    cases v with
    | file content => simp [ht, at?_file hne] at h
    | dir entries => exact ⟨entries, rfl⟩

theorem locate_eq_append {t : Tree} {trail names r : List String} (hup : ".." ∉ names)
    (h : t.locate trail names = .ok r) : r = trail ++ names := by
  induction names generalizing trail with
  | nil => simpa [locate] using h.symm
  | cons name names ih =>
    have hname : (name == "..") = false := by
      simp only [beq_eq_false_iff_ne]
      exact fun hc => hup (hc ▸ List.mem_cons_self)
    unfold locate at h
    split at h
    · simp only [hname, Bool.false_eq_true, if_false] at h
      split_ifs at h
      rw [ih (fun hc => hup (List.mem_cons_of_mem _ hc)) h, List.append_assoc, List.singleton_append]
    · simp at h
    · simp at h

theorem locate_of_at? {t u : Tree} {trail names : List String} (hup : ".." ∉ names)
    (h : t.at? (trail ++ names) = some u) : t.locate trail names = .ok (trail ++ names) := by
  induction names generalizing trail with
  | nil => simp [locate]
  | cons name names ih =>
    have hname : (name == "..") = false := by
      simp only [beq_eq_false_iff_ne]
      exact fun hc => hup (hc ▸ List.mem_cons_self)
    obtain ⟨entries, hdir⟩ := exists_dir_of_at? h (by simp)
    have hsplit : trail ++ name :: names = (trail ++ [name]) ++ names := by simp
    have hchild : (entries.lookup name).isSome = true := by
      rw [hsplit, at?_append, at?_append, hdir, Option.bind_some, at?_singleton] at h
      cases hl : entries.lookup name with
      | none => simp [child?, hl] at h
      | some v => rfl
    rw [hsplit] at h ⊢
    unfold locate
    simp only [hdir, hname, Bool.false_eq_true, if_false, hchild, if_true]
    exact ih (fun hc => hup (List.mem_cons_of_mem _ hc)) h

theorem find_eq {p : Path} (hp : p.IsPlain) (t : Tree) : t.find p =
    match t.locate [] p.parts with
    | .error e => .error e
    | .ok trail => match t.at? trail with
      | some found => .ok found
      | none => .error .missing := by
  simp only [find, hp.isEmpty, Bool.not_true, Bool.false_eq_true, if_false]
  cases t.locate [] p.parts <;> rfl

theorem bytes?_eq_fileAt {p : Path} (hp : p.IsPlain) (t : Tree) : t.bytes? p = t.fileAt p.parts := by
  unfold bytes? readBytes fileAt
  rw [find_eq hp]
  cases hl : t.locate [] p.parts with
  | error e =>
    -- what cannot be walked to is not there
    cases ht : t.at? p.parts with
    | none => rfl
    | some u =>
      rw [locate_of_at? hp.noUp (by simpa using ht)] at hl
      simp at hl
  | ok trail =>
    obtain rfl : trail = p.parts := by simpa using locate_eq_append hp.noUp hl
    cases ht : t.at? p.parts with
    | none => simp [ht, Except.toOption]
    | some u => cases u <;> simp [ht, Except.toOption]

/-- where a plain path would stand: its last name in the directory of the others -/
theorem place_eq_ok {t : Tree} {p : Path} (hp : p.IsPlain) {trail : List String} {name : String}
    (h : t.place p = .ok (trail, name)) : p.parts = trail ++ [name] ∧ ∃ entries, t.at? trail = some (.dir entries) := by
  simp only [place, hp.isEmpty, Bool.not_true, Bool.false_eq_true, if_false] at h
  cases hlast : p.parts.getLast? with
  | none =>
    rw [hlast] at h
    cases h
  | some last =>
    rw [hlast] at h
    cases hr : t.locate [] p.parts.dropLast with
    | error e => simp [hr, bind, Except.bind] at h
    | ok r =>
      have hup : ".." ∉ p.parts.dropLast := fun hc => hp.noUp (List.dropLast_subset _ hc)
      have hr' : r = p.parts.dropLast := by simpa using locate_eq_append hup hr
      simp only [hr, bind, Except.bind, pure, Except.pure] at h
      cases hdir : t.at? r with
      | none =>
        rw [hdir] at h
        cases h
      | some u =>
        rw [hdir] at h
        cases u with
        | file content => cases h
        | dir entries =>
          dsimp only at h
          split_ifs at h
          obtain ⟨rfl, rfl⟩ : r = trail ∧ last = name := by simpa using h
          exact ⟨by rw [hr']; exact (List.dropLast_append_getLast? last hlast).symm, entries, hdir⟩

/-! ## Putting something at a place -/

theorem at?_put_append (t : Tree) (place names : List String) (new : Tree) :
    (t.put place new).at? (place ++ names) = new.at? names := by
  induction place generalizing t with
  | nil => cases t <;> rfl
  | cons name place ih =>
    cases t with
    | file content => simp [put, at?, child?, ih]
    | dir entries => simp [put, at?, child?, Table.lookup_set, ih]

theorem at?_put_self (t : Tree) (place : List String) (new : Tree) : (t.put place new).at? place = some new := by
  have hself := at?_put_append t place [] new
  rw [List.append_nil] at hself
  exact hself

/-- the places above and beside hold the files they held -/
theorem fileAt_put {t new : Tree} {place other : List String} (hbeside : ¬ place <+: other)
    (habove : ∀ trail content, trail <+: place → trail ≠ place → t.at? trail ≠ some (.file content)) :
    (t.put place new).fileAt other = t.fileAt other := by
  induction place generalizing t other with
  | nil => exact absurd List.nil_prefix hbeside
  | cons name place ih =>
    cases t with
    | file content => exact absurd rfl (habove [] content List.nil_prefix (by simp))
    | dir entries =>
      cases other with
      | nil => rfl
      | cons n other =>
        by_cases hn : n = name
        · subst hn
          have hput : ((Tree.dir entries).put (n :: place) new).fileAt (n :: other) =
              (((entries.lookup n).getD empty).put place new).fileAt other := by
            simp [fileAt, put, at?, child?, Table.lookup_set]
          have hold : (Tree.dir entries).fileAt (n :: other) = ((entries.lookup n).getD empty).fileAt other := by
            cases hl : entries.lookup n with
            | none => cases other <;> simp [fileAt, at?, child?, hl, empty]
            | some u => simp [fileAt, at?, child?, hl]
          rw [hput, hold]
          refine ih (fun hc => hbeside (List.cons_prefix_cons.2 ⟨rfl, hc⟩)) ?_
          intro trail content hpre hne hat
          cases hl : entries.lookup n with
          | none => cases trail <;> simp [hl, empty, at?, child?] at hat
          | some u =>
            refine habove (n :: trail) content (List.cons_prefix_cons.2 ⟨rfl, hpre⟩) (by simpa using hne) ?_
            simpa [at?, child?, hl] using hat
        · simp [fileAt, put, at?, child?, Table.lookup_set, hn]

/-- putting a file or an empty directory into a directory, where no directory stands, changes the files at that place
only -/
theorem fileAt_put_child {t new : Tree} {trail other : List String} {name : String} {entries : List (String × Tree)}
    (hdir : t.at? trail = some (.dir entries)) (hold : ∀ es, t.at? (trail ++ [name]) ≠ some (.dir es))
    (hnew : ∀ names ≠ [], new.at? names = none) (hne : other ≠ trail ++ [name]) :
    (t.put (trail ++ [name]) new).fileAt other = t.fileAt other := by
  by_cases hbelow : trail ++ [name] <+: other
  · -- below the place there is no file, before and after
    obtain ⟨names, rfl⟩ := hbelow
    have hnames : names ≠ [] := fun hc => hne (by simp [hc])
    have hafter : (t.put (trail ++ [name]) new).fileAt (trail ++ [name] ++ names) = none := by
      unfold fileAt
      rw [at?_put_append, hnew names hnames]
    have hbefore : t.fileAt (trail ++ [name] ++ names) = none := by
      unfold fileAt
      cases hat : t.at? (trail ++ [name] ++ names) with
      | none => rfl
      | some u =>
        obtain ⟨es, hes⟩ := exists_dir_of_at? hat hnames
        exact absurd hes (hold es)
    rw [hafter, hbefore]
  · refine fileAt_put hbelow ?_
    intro above content hpre hne' hfile
    -- a place above `trail ++ [name]` leads to `trail`, which is a directory
    obtain ⟨rest, hrest⟩ := (List.prefix_concat_iff.1 hpre).resolve_left (by simpa using hne')
    rw [← hrest, at?_append, hfile, Option.bind_some] at hdir
    cases rest with
    | nil => simp [at?] at hdir
    | cons n rest => simp [at?_file] at hdir

/-! ## Making directories and writing -/

theorem at?_empty {names : List String} (h : names ≠ []) : empty.at? names = none := by
  cases names with
  | nil => exact absurd rfl h
  | cons name names => rfl

/-- a directory is made where nothing stands, in one that is there -/
theorem makeDir_eq_ok {t made : Tree} {p : Path} (h : t.makeDir p = .ok made) :
    ∃ trail name, t.place p = .ok (trail, name) ∧ t.at? (trail ++ [name]) = none ∧
      t.put (trail ++ [name]) empty = made := by
  simp only [makeDir] at h
  split_ifs at h with hempty
  · cases h
  · cases hplace : t.place p with
    | error e => cases e <;> (rw [hplace] at h; cases h)
    | ok found =>
      rw [hplace] at h
      change (match t.at? (found.1 ++ [found.2]) with
        | some _ => Except.error FileError.exists
        | none => .ok (t.put (found.1 ++ [found.2]) empty)) = .ok made at h
      split at h
      · simp at h
      · rename_i hat
        exact ⟨found.1, found.2, rfl, hat, by simpa using h⟩

theorem fileAt_makeDir {t made : Tree} {p : Path} (hp : p.IsPlain) (h : t.makeDir p = .ok made)
    (other : List String) : made.fileAt other = t.fileAt other := by
  obtain ⟨trail, name, hplace, hat, rfl⟩ := makeDir_eq_ok h
  obtain ⟨-, entries, hdir⟩ := place_eq_ok hp hplace
  by_cases hne : other = trail ++ [name]
  · subst hne
    unfold fileAt
    rw [at?_put_self, hat]
    rfl
  · exact fileAt_put_child hdir (by simp [hat]) (fun _ => at?_empty) hne

theorem fileAt_makeDirsRev {t made : Tree} {names : List String} (hup : ".." ∉ names)
    (h : t.makeDirsRev names = .ok made) (other : List String) : made.fileAt other = t.fileAt other := by
  induction names generalizing t made with
  | nil =>
    obtain rfl : t = made := by simpa [makeDirsRev] using h
    rfl
  | cons name above ih =>
    have hp : Path.IsPlain ⟨"", (name :: above).reverse⟩ := ⟨rfl, by rwa [List.mem_reverse]⟩
    simp only [makeDirsRev] at h
    generalize (⟨"", (name :: above).reverse⟩ : Path) = p at h hp
    cases hmake : t.makeDir p with
    | ok u =>
      obtain rfl : u = made := by simpa [hmake] using h
      exact fileAt_makeDir hp hmake other
    | error e =>
      by_cases he : e = .missing
      · -- the directories above come first
        subst he
        cases habove : t.makeDirsRev above with
        | error f => simp [hmake, habove] at h
        | ok u =>
          have hsame := ih (fun hc => hup (List.mem_cons_of_mem _ hc)) habove
          cases hagain : u.makeDir p with
          | ok v =>
            obtain rfl : v = made := by simpa [hmake, habove, hagain] using h
            rw [fileAt_makeDir hp hagain other, hsame]
          | error e' =>
            simp only [hmake, habove, hagain] at h
            split_ifs at h
            obtain rfl : u = made := by simpa using h
            exact hsame
      · simp only [hmake] at h
        split_ifs at h
        obtain rfl : t = made := by simpa using h
        rfl

theorem fileAt_makeDirs {t made : Tree} {p : Path} (hp : p.IsPlain) (h : t.makeDirs p = .ok made)
    (other : List String) : made.fileAt other = t.fileAt other := by
  simp only [makeDirs, hp.isEmpty, if_true] at h
  exact fileAt_makeDirsRev (by simpa using hp.noUp) h other

theorem fileAt_writeBytes {t written : Tree} {p : Path} {content : List UInt8} (hp : p.IsPlain)
    (h : t.writeBytes p content = .ok written) (other : List String) :
    written.fileAt other = if other = p.parts then some content else t.fileAt other := by
  unfold writeBytes at h
  split at h
  · simp at h
  rename_i trail name hplace
  obtain ⟨hparts, entries, hdir⟩ := place_eq_ok hp hplace
  split at h
  · simp at h
  rename_i hold
  obtain rfl : t.put (trail ++ [name]) (.file content) = written := by simpa using h
  by_cases hne : other = p.parts
  · subst hne
    simp [fileAt, hparts, at?_put_self]
  · rw [if_neg hne]
    exact fileAt_put_child hdir hold (fun _ => at?_file) (hparts ▸ hne)

end Tree

end ClassNaming
