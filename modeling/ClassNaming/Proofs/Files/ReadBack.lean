/-
A file that is written is read back, at any path.

The path may lead up and down through the tree. Writing a file takes no directory away, so the path leads to the same
place afterwards.

- `dirsKept_put`: directories stay directories and keep their names.
- `readBytes_writeBytes`: the bytes at the path are those that were written.
- `readText_writeText`: so is the text, if it has no carriage return.
- `writeBytes_beside`, `writeBytes_over`: a name that a directory does not have can be written in it, and a file that can
  be read can be written.
-/
import ClassNaming.Proofs.Files.Places
import ClassNaming.Proofs.Text.Bytes

namespace ClassNaming

namespace Tree

/-- every directory of the first tree is one of the second, with its names and perhaps others -/
def DirsKept (t u : Tree) : Prop :=
  ∀ trail entries, t.at? trail = some (.dir entries) → ∃ others, u.at? trail = some (.dir others) ∧
    ∀ name, (entries.lookup name).isSome = true → (others.lookup name).isSome = true

/-- something that is put where no directory stands -/
theorem dirsKept_put {t : Tree} {place : List String} (h : ∀ entries, t.at? place ≠ some (.dir entries)) (new : Tree) :
    DirsKept t (t.put place new) := by
  induction place generalizing t with
  | nil =>
    intro trail entries htrail
    cases t with
    | dir es => exact absurd rfl (h es)
    | file content =>
      cases trail with
      | nil => cases htrail
      | cons n trail => cases htrail
  | cons name place ih =>
    intro trail entries htrail
    cases t with
    | file content =>
      cases trail with
      | nil => cases htrail
      | cons n trail => cases htrail
    | dir es =>
      cases trail with
      | nil =>
        cases htrail
        refine ⟨_, rfl, fun n hn => ?_⟩
        rw [Table.lookup_set]
        split_ifs
        · rfl
        · exact hn
      | cons n trail =>
        by_cases hn : n = name
        · subst hn
          obtain ⟨u, hu, hdir⟩ := Option.bind_eq_some_iff.1 htrail
          have hlookup : es.lookup n = some u := hu
          have hplace : ∀ entries, u.at? place ≠ some (.dir entries) := fun entries hat => by
            refine h entries ?_
            simp [at?, child?, hlookup, hat]
          obtain ⟨others, hothers, hkept⟩ := ih hplace trail entries hdir
          refine ⟨others, ?_, hkept⟩
          simpa [put, at?, child?, Table.lookup_set, hlookup] using hothers
        · refine ⟨entries, ?_, fun _ hsome => hsome⟩
          simpa [put, at?, child?, Table.lookup_set, hn] using htrail

/-- a path that leads somewhere leads to the same place where directories are kept -/
theorem locate_dirsKept {t u : Tree} (h : DirsKept t u) {trail names place : List String}
    (hlocate : t.locate trail names = .ok place) : u.locate trail names = .ok place := by
  induction names generalizing trail with
  | nil => simpa [locate] using hlocate
  | cons name names ih =>
    unfold locate at hlocate ⊢
    split at hlocate
    · rename_i entries hdir
      obtain ⟨others, hothers, hkept⟩ := h _ _ hdir
      rw [hothers]
      dsimp only
      split_ifs at hlocate with hup htop hname
      · rw [if_pos hup, if_neg htop]
        exact ih hlocate
      · rw [if_neg hup, if_pos (hkept name hname)]
        exact ih hlocate
    · cases hlocate
    · cases hlocate

theorem locate_append (t : Tree) (trail names more : List String) :
    t.locate trail (names ++ more) = (t.locate trail names).bind fun place => t.locate place more := by
  induction names generalizing trail with
  | nil => simp [locate, Except.bind]
  | cons name names ih =>
    rw [List.cons_append, locate, locate]
    split
    · split_ifs
      · rfl
      · exact ih _
      · exact ih _
      · rfl
    · rfl
    · rfl

/-- where a path would stand: its last name in the directory that the others lead to -/
theorem place_parts {t : Tree} {p : Path} {trail : List String} {name : String} (h : t.place p = .ok (trail, name)) :
    p.anchor.isEmpty = true ∧ ∃ names entries, p.parts = names ++ [name] ∧ t.locate [] names = .ok trail ∧
      t.at? trail = some (.dir entries) ∧ name ≠ ".." := by
  unfold place at h
  cases hanchor : p.anchor.isEmpty with
  | false => simp [hanchor, bind, Except.bind, throw, throwThe, MonadExceptOf.throw] at h
  | true =>
    simp only [hanchor, Bool.not_true, Bool.false_eq_true, if_false, bind, Except.bind, pure, Except.pure] at h
    cases hlast : p.parts.getLast? with
    | none => rw [hlast] at h; cases h
    | some last =>
      rw [hlast] at h
      dsimp only at h
      cases hr : t.locate [] p.parts.dropLast with
      | error e => rw [hr] at h; cases h
      | ok r =>
        rw [hr] at h
        dsimp only at h
        split at h
        · rename_i entries hdir
          split_ifs at h with hup
          obtain ⟨rfl, rfl⟩ : r = trail ∧ last = name := by simpa using h
          exact ⟨rfl, _, entries, (List.dropLast_append_getLast? last hlast).symm, hr, hdir, by simpa using hup⟩
        · cases h

/-- **Written files are read back:** at the path that was written the bytes are those that were written, whatever the
path. -/
theorem readBytes_writeBytes {t written : Tree} {p : Path} {content : List UInt8}
    (h : t.writeBytes p content = .ok written) : written.readBytes p = .ok content := by
  unfold writeBytes at h
  split at h
  · cases h
  rename_i trail name hplace
  obtain ⟨hanchor, names, entries, hparts, hlocate, hdir, hup⟩ := place_parts hplace
  split at h
  · cases h
  rename_i hold
  obtain rfl : t.put (trail ++ [name]) (.file content) = written := by simpa using h
  have hkept := dirsKept_put (fun entries hat => hold entries hat) (.file content)
  have hself := at?_put_self t (trail ++ [name]) (.file content)
  obtain ⟨others, hothers, -⟩ := hkept _ _ hdir
  have hchild : (others.lookup name).isSome = true := by
    rw [at?_append, hothers, Option.bind_some, at?_singleton] at hself
    have hlookup : others.lookup name = some (.file content) := hself
    rw [hlookup]
    rfl
  have hname : (name == "..") = false := by simpa using hup
  have hfound : (t.put (trail ++ [name]) (.file content)).locate [] p.parts = .ok (trail ++ [name]) := by
    rw [hparts, locate_append, locate_dirsKept hkept hlocate]
    simp [Except.bind, locate, hothers, hname, hchild]
  simp only [readBytes, find, hanchor, Bool.not_true, Bool.false_eq_true, if_false, bind, Except.bind, hfound, hself,
    pure, Except.pure]

theorem has_of_readBytes {t : Tree} {p : Path} {content : List UInt8} (h : t.readBytes p = .ok content) :
    t.has p = true := by
  unfold readBytes at h
  split at h
  · rename_i hfind
    simp [has, hfind]
  · cases h
  · cases h

/-- a text without carriage returns is read back as it was written -/
theorem readText_writeText {t written : Tree} {p : Path} {text : String} (h : t.writeText p text = .ok written)
    (hreturn : '\r' ∉ text.toList) : written.readText p = .ok text.toList := by
  rw [readText, readBytes_writeBytes h]
  change (Utf8.decode (Utf8.encode text.toList)).bind _ = _
  rw [Utf8.decode_encode]
  change Except.ok (Text.unifyLineEnds text.toList) = _
  rw [Text.unifyLineEnds_of_notMem hreturn]

theorem isDirectory_iff {t : Tree} {p : Path} : t.isDirectory p = true ↔
    p.anchor.isEmpty = true ∧ ∃ trail entries, t.locate [] p.parts = .ok trail ∧ t.at? trail = some (.dir entries) := by
  cases hanchor : p.anchor.isEmpty with
  | false => simp [isDirectory, find, hanchor, bind, Except.bind, throw, throwThe, MonadExceptOf.throw]
  | true =>
    simp only [isDirectory, find, hanchor, Bool.not_true, Bool.false_eq_true, if_false, bind, Except.bind, pure,
      Except.pure, throw, throwThe, MonadExceptOf.throw, true_and]
    cases hlocate : t.locate [] p.parts with
    | error e => simp
    | ok trail =>
      cases hat : t.at? trail with
      | none => simp [hat]
      | some u => cases u <;> simp [hat]

/-- a name stands in the directory that the path before it leads to -/
theorem place_append {t : Tree} {dir : Path} {name : String} {trail : List String} {entries : List (String × Tree)}
    (hanchor : dir.anchor.isEmpty = true) (hlocate : t.locate [] dir.parts = .ok trail)
    (hat : t.at? trail = some (.dir entries)) (hup : name ≠ "..") : t.place (dir.append [name]) = .ok (trail, name) := by
  have hanchor' : (dir.append [name]).anchor.isEmpty = true := hanchor
  have hparts : (dir.append [name]).parts = dir.parts ++ [name] := rfl
  have hname : (name == "..") = false := by simpa using hup
  simp [place, hanchor', hparts, hlocate, hat, hname, bind, Except.bind, pure, Except.pure]

/-- a name that is not in a directory can be written there -/
theorem writeBytes_beside {t : Tree} {dir : Path} {name : String} (hdir : t.isDirectory dir = true)
    (hup : name ≠ "..") (h : t.has (dir.append [name]) = false) (content : List UInt8) :
    ∃ written, t.writeBytes (dir.append [name]) content = .ok written := by
  obtain ⟨hanchor, trail, entries, hlocate, hat⟩ := isDirectory_iff.1 hdir
  have hplace := place_append hanchor hlocate hat hup
  have hchild : t.at? (trail ++ [name]) = entries.lookup name := by
    rw [at?_append, hat]
    exact at?_singleton _ name
  cases hlookup : entries.lookup name with
  | none => exact ⟨t.put (trail ++ [name]) (.file content), by simp [writeBytes, hplace, hchild, hlookup]⟩
  | some u =>
    -- a name that is there would be found
    have hanchor' : (dir.append [name]).anchor.isEmpty = true := hanchor
    have hparts : (dir.append [name]).parts = dir.parts ++ [name] := rfl
    have hname : (name == "..") = false := by simpa using hup
    have hfound : t.locate [] (dir.append [name]).parts = .ok (trail ++ [name]) := by
      rw [hparts, locate_append, hlocate]
      simp [Except.bind, locate, hat, hname, hlookup]
    simp [has, find, hanchor', hfound, hchild, hlookup, bind, Except.bind, pure, Except.pure] at h

theorem find_of_readBytes {t : Tree} {p : Path} {content : List UInt8} (h : t.readBytes p = .ok content) :
    p.anchor.isEmpty = true ∧ ∃ trail, t.locate [] p.parts = .ok trail ∧ t.at? trail = some (.file content) := by
  unfold readBytes at h
  split at h
  · rename_i found hfind
    cases h
    cases hanchor : p.anchor.isEmpty with
    | false => simp [find, hanchor, bind, Except.bind, throw, throwThe, MonadExceptOf.throw] at hfind
    | true =>
      simp only [find, hanchor, Bool.not_true, Bool.false_eq_true, if_false, bind, Except.bind, pure,
        Except.pure] at hfind
      cases hlocate : t.locate [] p.parts with
      | error e => rw [hlocate] at hfind; cases hfind
      | ok trail =>
        rw [hlocate] at hfind
        dsimp only at hfind
        split at hfind
        · rename_i found hat
          cases hfind
          exact ⟨rfl, trail, rfl, hat⟩
        · cases hfind
  · cases h
  · cases h

/-- a file that can be read can be written -/
theorem writeBytes_over {t : Tree} {dir : Path} {name : String} {old : List UInt8}
    (h : t.readBytes (dir.append [name]) = .ok old) (hup : name ≠ "..") (content : List UInt8) :
    ∃ written, t.writeBytes (dir.append [name]) content = .ok written := by
  obtain ⟨hanchor, trail, hlocate, hat⟩ := find_of_readBytes h
  have hparts : (dir.append [name]).parts = dir.parts ++ [name] := rfl
  rw [hparts, locate_append] at hlocate
  obtain ⟨above, habove, hlast⟩ : ∃ above, t.locate [] dir.parts = .ok above ∧ t.locate above [name] = .ok trail := by
    cases habove : t.locate [] dir.parts with
    | error e => rw [habove] at hlocate; cases hlocate
    | ok above => exact ⟨above, rfl, by rwa [habove] at hlocate⟩
  have hname : (name == "..") = false := by simpa using hup
  unfold locate at hlast
  split at hlast
  · rename_i entries hdir
    rw [if_neg (by simp [hname])] at hlast
    split_ifs at hlast
    obtain rfl : above ++ [name] = trail := by simpa [locate] using hlast
    have hplace := place_append (show dir.anchor.isEmpty = true from hanchor) habove hdir hup
    exact ⟨t.put (above ++ [name]) (.file content), by simp [writeBytes, hplace, hat]⟩
  · cases hlast
  · cases hlast

/-- writing changes the file at the place of the path and no other, whatever the path -/
theorem fileAt_writeBytes_of_ne {t written : Tree} {p : Path} {content : List UInt8} {trail other : List String}
    {name : String} (h : t.writeBytes p content = .ok written) (hplace : t.place p = .ok (trail, name))
    (hne : other ≠ trail ++ [name]) : written.fileAt other = t.fileAt other := by
  obtain ⟨-, -, entries, -, -, hdir, -⟩ := place_parts hplace
  rw [writeBytes, hplace] at h
  dsimp only at h
  split at h
  · cases h
  · rename_i hold
    obtain rfl : t.put (trail ++ [name]) (.file content) = written := by simpa using h
    exact fileAt_put_child hdir hold (fun _ => at?_file) hne

end Tree

end ClassNaming
