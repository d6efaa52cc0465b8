/-
What a scan finds, and in which order.

Files are found by chains of names below the root of a scan. In each directory the files stand first, by name, and then
what is below the kept subdirectories, by their names; names are compared by code points.

- `Precedes`: this order of chains; no chain precedes itself, and no two precede each other.
- `pairwise_wantedBelow`: the chains stand in this order, so each stands once.
- `mem_wantedBelow`: they are those of the wanted files with no skipped directory on their way.
- `wantedBelow_relisted`: they do not depend on the order in which directories list their entries.
- `discover_exact`: what is discovered under a directory.
-/
import Mathlib.Data.List.Sort
import Mathlib.Data.String.Basic
import ClassNaming.Proofs.Files.Listing
import ClassNaming.Proofs.Files.Places
import ClassNaming.Scan.Scanner

namespace ClassNaming

/-! ## The order of a scan -/

/-- the order of the files of a scan, by the chains of names that lead to them: the files of a directory by name, before
what is below its subdirectories, by their names -/
def Precedes : List String → List String → Prop
  | [a], [b] => a < b
  | [_], _ :: _ :: _ => True
  | a :: x :: xs, b :: y :: ys => a < b ∨ a = b ∧ Precedes (x :: xs) (y :: ys)
  | _, _ => False

theorem Precedes.asymm {xs ys : List String} (h : Precedes xs ys) : ¬ Precedes ys xs := by
  fun_induction Precedes xs ys with
  | case1 a b => exact lt_asymm h
  | case2 a b y ys => simp [Precedes]
  | case3 a x xs b y ys ih =>
    rw [Precedes]
    rintro (hba | ⟨rfl, hback⟩)
    · rcases h with hab | ⟨rfl, -⟩
      · exact lt_asymm hab hba
      · exact lt_irrefl _ hba
    · rcases h with hab | ⟨-, hforth⟩
      · exact lt_irrefl _ hab
      · exact ih hforth hback
  | case4 => exact h.elim

instance : Std.Irrefl Precedes := ⟨fun _ h => h.asymm h⟩

theorem precedes_cons {name : String} {xs ys : List String} (hxs : xs ≠ []) (hys : ys ≠ []) (h : Precedes xs ys) :
    Precedes (name :: xs) (name :: ys) := by
  obtain ⟨x, xs, rfl⟩ := List.exists_cons_of_ne_nil hxs
  obtain ⟨y, ys, rfl⟩ := List.exists_cons_of_ne_nil hys
  exact .inr ⟨rfl, h⟩

theorem precedes_of_lt {a b : String} (h : a < b) {xs ys : List String} (hxs : xs ≠ []) (hys : ys ≠ []) :
    Precedes (a :: xs) (b :: ys) := by
  obtain ⟨x, xs, rfl⟩ := List.exists_cons_of_ne_nil hxs
  obtain ⟨y, ys, rfl⟩ := List.exists_cons_of_ne_nil hys
  exact .inl h

/-- lists in this order with the same members are the same -/
theorem eq_of_precedes {xs ys : List (List String)} (hxs : xs.Pairwise Precedes) (hys : ys.Pairwise Precedes)
    (h : ∀ names, names ∈ xs ↔ names ∈ ys) : xs = ys := by
  have hperm : xs.Perm ys := (List.perm_ext_iff_of_nodup hxs.nodup hys.nodup).2 h
  exact hperm.eq_of_pairwise (fun a b _ _ hab hba => absurd hba hab.asymm) hxs hys

/-! ## Sorting by name -/

section

variable {α : Type} {named : List (String × α)}

theorem sortByName_perm (named : List (String × α)) : (sortByName named).Perm named := List.mergeSort_perm _ _

theorem pairwise_sortByName (h : (named.map (·.1)).Nodup) : (sortByName named).Pairwise fun a b => a.1 < b.1 := by
  have hle : (sortByName named).Pairwise fun a b => decide (a.1 ≤ b.1) = true := by
    refine List.pairwise_mergeSort ?_ ?_ named
    · intro a b c hab hbc
      simp only [decide_eq_true_eq] at hab hbc ⊢
      exact le_trans hab hbc
    · intro a b
      simpa using le_total a.1 b.1
  have hne : (sortByName named).Pairwise fun a b => a.1 ≠ b.1 :=
    List.pairwise_map.1 (((sortByName_perm named).map _).nodup_iff.2 h)
  refine (hle.and hne).imp ?_
  rintro a b ⟨hab, hab'⟩
  exact lt_of_le_of_ne (by simpa using hab) hab'

end

namespace Tree

variable {skips wanted : String → Bool} {entries : List (String × Tree)}

/-! ## The entries of a directory -/

/-- choosing entries and keeping their names makes no name stand twice -/
theorem nodup_filterMap {α : Type} {choose : String × Tree → Option (String × α)}
    (hchoose : ∀ e r, choose e = some r → r.1 = e.1) (h : (entries.map (·.1)).Nodup) :
    ((entries.filterMap choose).map (·.1)).Nodup := by
  refine List.Sublist.nodup ?_ h
  clear h
  induction entries with
  | nil => exact .slnil
  | cons e entries ih =>
    cases hr : choose e with
    | none =>
      rw [List.filterMap_cons_none hr]
      exact ih.cons _
    | some r =>
      rw [List.filterMap_cons_some hr, List.map_cons, List.map_cons, hchoose e r hr]
      exact ih.cons_cons _

def chooseFile (wanted : String → Bool) : String × Tree → Option (String × List String)
  | (name, .file _) => if wanted name then some (name, [name]) else none
  | (_, .dir _) => none

theorem fileNames_eq (wanted : String → Bool) (entries : List (String × Tree)) :
    fileNames wanted entries = entries.filterMap (chooseFile wanted) := by
  fun_induction fileNames wanted entries with
  | case1 => rfl
  | case2 name content rest hwanted ih => simp [chooseFile, hwanted, ih]
  | case3 name content rest hnot ih => simp [chooseFile, hnot, ih]
  | case4 name below rest ih => rw [ih, List.filterMap_cons_none rfl]

def chooseBelow (skips wanted : String → Bool) (e : String × Tree) : Option (String × List (List String)) :=
  if e.2.isDir && !skips e.1 then some (e.1, (wantedBelow skips wanted e.2).map (e.1 :: ·)) else none

theorem wantedBelowEach_eq (skips wanted : String → Bool) (entries : List (String × Tree)) :
    wantedBelowEach skips wanted entries = entries.filterMap (chooseBelow skips wanted) := by
  induction entries with
  | nil => rfl
  | cons e entries ih =>
    obtain ⟨name, t⟩ := e
    rw [wantedBelowEach, List.filterMap_cons, chooseBelow]
    split_ifs <;> simp [ih]

theorem mem_fileNames {name : String} {found : List String} :
    (name, found) ∈ fileNames wanted entries ↔
      (∃ content, (name, .file content) ∈ entries) ∧ wanted name = true ∧ found = [name] := by
  rw [fileNames_eq, List.mem_filterMap]
  constructor
  · rintro ⟨⟨n, t⟩, hmem, hchosen⟩
    cases t with
    | file content =>
      simp only [chooseFile, Option.ite_none_right_eq_some, Option.some.injEq, Prod.mk.injEq] at hchosen
      obtain ⟨hwanted, rfl, rfl⟩ := hchosen
      exact ⟨⟨content, hmem⟩, hwanted, rfl⟩
    | dir below => cases hchosen
  · rintro ⟨⟨content, hmem⟩, hwanted, rfl⟩
    exact ⟨(name, .file content), hmem, by simp [chooseFile, hwanted]⟩

theorem mem_wantedBelowEach {name : String} {found : List (List String)} :
    (name, found) ∈ wantedBelowEach skips wanted entries ↔
      ∃ below, (name, .dir below) ∈ entries ∧ skips name = false ∧
        found = (wantedBelow skips wanted (.dir below)).map (name :: ·) := by
  rw [wantedBelowEach_eq, List.mem_filterMap]
  constructor
  · rintro ⟨⟨n, t⟩, hmem, hchosen⟩
    cases t with
    | file content => simp [chooseBelow, isDir] at hchosen
    | dir below =>
      simp only [chooseBelow, isDir, Bool.true_and, Bool.not_eq_true', Option.ite_none_right_eq_some,
        Option.some.injEq, Prod.mk.injEq] at hchosen
      obtain ⟨hkept, rfl, rfl⟩ := hchosen
      exact ⟨below, hmem, hkept, rfl⟩
  · rintro ⟨below, hmem, hkept, rfl⟩
    exact ⟨(name, .dir below), hmem, by simp [chooseBelow, isDir, hkept]⟩

theorem nodup_fileNames (h : (entries.map (·.1)).Nodup) : ((fileNames wanted entries).map (·.1)).Nodup := by
  rw [fileNames_eq]
  refine nodup_filterMap ?_ h
  rintro ⟨name, t⟩ r hr
  cases t with
  | file content =>
    simp only [chooseFile, Option.ite_none_right_eq_some, Option.some.injEq] at hr
    rw [← hr.2]
  | dir below => cases hr

theorem nodup_wantedBelowEach (h : (entries.map (·.1)).Nodup) :
    ((wantedBelowEach skips wanted entries).map (·.1)).Nodup := by
  rw [wantedBelowEach_eq]
  refine nodup_filterMap ?_ h
  intro e r hr
  simp only [chooseBelow, Option.ite_none_right_eq_some, Option.some.injEq] at hr
  rw [← hr.2]

/-! ## What is found -/

/-- a chain leads to a wanted file of the directory itself, or through a kept subdirectory -/
theorem mem_wantedBelow_dir {names : List String} : names ∈ wantedBelow skips wanted (.dir entries) ↔
    (∃ name content, names = [name] ∧ (name, .file content) ∈ entries ∧ wanted name = true) ∨
      ∃ name below rest, names = name :: rest ∧ (name, .dir below) ∈ entries ∧ skips name = false ∧
        rest ∈ wantedBelow skips wanted (.dir below) := by
  rw [wantedBelow, List.mem_append]
  refine or_congr ?_ ?_
  · constructor
    · intro h
      obtain ⟨⟨name, found⟩, hmem, rfl⟩ := List.mem_map.1 h
      obtain ⟨⟨content, hentry⟩, hwanted, rfl⟩ := mem_fileNames.1 ((sortByName_perm _).mem_iff.1 hmem)
      exact ⟨name, content, rfl, hentry, hwanted⟩
    · rintro ⟨name, content, rfl, hentry, hwanted⟩
      refine List.mem_map.2 ⟨(name, [name]), (sortByName_perm _).mem_iff.2 ?_, rfl⟩
      exact mem_fileNames.2 ⟨⟨content, hentry⟩, hwanted, rfl⟩
  · constructor
    · intro h
      obtain ⟨⟨name, found⟩, hmem, hnames⟩ := List.mem_flatMap.1 h
      obtain ⟨below, hentry, hkept, rfl⟩ := mem_wantedBelowEach.1 ((sortByName_perm _).mem_iff.1 hmem)
      obtain ⟨rest, hrest, rfl⟩ := List.mem_map.1 hnames
      exact ⟨name, below, rest, rfl, hentry, hkept, hrest⟩
    · rintro ⟨name, below, rest, rfl, hentry, hkept, hrest⟩
      refine List.mem_flatMap.2 ⟨(name, _), (sortByName_perm _).mem_iff.2 ?_, List.mem_map_of_mem hrest⟩
      exact mem_wantedBelowEach.2 ⟨below, hentry, hkept, rfl⟩

theorem ne_nil_of_mem_wantedBelow {t : Tree} {names : List String} (h : names ∈ wantedBelow skips wanted t) :
    names ≠ [] := by
  cases t with
  | file content => simp [wantedBelow] at h
  | dir entries =>
    rcases mem_wantedBelow_dir.1 h with ⟨name, content, rfl, -⟩ | ⟨name, below, rest, rfl, -⟩ <;> simp

theorem at?_cons_dir (name : String) (names : List String) :
    (Tree.dir entries).at? (name :: names) = (entries.lookup name).bind (at? · names) :=
  rfl

/-- the chains to the wanted files on whose way no directory is skipped -/
theorem mem_wantedBelow {t : Tree} (ht : t.Distinct) {names : List String} :
    names ∈ wantedBelow skips wanted t ↔ names ≠ [] ∧ (∃ content, t.at? names = some (.file content)) ∧
      wanted (names.getLast?.getD "") = true ∧ ∀ name ∈ names.dropLast, skips name = false := by
  induction names generalizing t with
  | nil => simpa using fun h => ne_nil_of_mem_wantedBelow h rfl
  | cons name names ih =>
    cases ht with
    | file content => simp [wantedBelow, at?, child?]
    | @dir entries hnames hbelow =>
      rw [mem_wantedBelow_dir]
      constructor
      · rintro (⟨n, content, heq, hentry, hwanted⟩ | ⟨n, below, rest, heq, hentry, hkept, hrest⟩)
        · obtain ⟨rfl, rfl⟩ := List.cons.inj heq
          rw [mem_iff_lookup hnames] at hentry
          exact ⟨by simp, ⟨content, (at?_singleton _ _).trans hentry⟩, by simpa using hwanted, by simp⟩
        · obtain ⟨rfl, rfl⟩ := List.cons.inj heq
          obtain ⟨hne, ⟨content, hfile⟩, hwanted, hway⟩ := (ih (hbelow _ hentry)).1 hrest
          rw [mem_iff_lookup hnames] at hentry
          refine ⟨by simp, ⟨content, by simp [at?_cons_dir, hentry, hfile]⟩, ?_, ?_⟩
          · rwa [List.getLast?_cons_of_ne_nil hne]
          · intro other hother
            rw [List.dropLast_cons_of_ne_nil hne, List.mem_cons] at hother
            rcases hother with rfl | hother
            · exact hkept
            · exact hway other hother
      · rintro ⟨-, ⟨content, hfile⟩, hwanted, hway⟩
        rw [at?_cons_dir, Option.bind_eq_some_iff] at hfile
        obtain ⟨u, hu, hfile⟩ := hfile
        rw [← mem_iff_lookup hnames] at hu
        by_cases hne : names = []
        · subst hne
          obtain rfl : u = .file content := by simpa [at?] using hfile
          exact .inl ⟨name, content, rfl, hu, by simpa using hwanted⟩
        · rw [List.getLast?_cons_of_ne_nil hne] at hwanted
          rw [List.dropLast_cons_of_ne_nil hne] at hway
          cases u with
          | file other =>
            rw [at?_file hne] at hfile
            cases hfile
          | dir below =>
            refine .inr ⟨name, below, names, rfl, hu, hway name (List.mem_cons_self ..), ?_⟩
            exact (ih (hbelow _ hu)).2 ⟨hne, ⟨content, hfile⟩, hwanted,
              fun other hother => hway other (List.mem_cons_of_mem _ hother)⟩

/-- the chains stand in the order of a scan -/
theorem pairwise_wantedBelow {t : Tree} (ht : t.Distinct) : (wantedBelow skips wanted t).Pairwise Precedes := by
  induction ht with
  | file content => simp [wantedBelow]
  | @dir entries hnames hbelow ih =>
    have hfiles : ∀ {found}, found ∈ sortByName (fileNames wanted entries) → found.2 = [found.1] := by
      intro found hfound
      exact (mem_fileNames.1 ((sortByName_perm _).mem_iff.1 hfound)).2.2
    have hdirs : ∀ {found}, found ∈ sortByName (wantedBelowEach skips wanted entries) → ∃ below,
        (found.1, .dir below) ∈ entries ∧ found.2 = (wantedBelow skips wanted (.dir below)).map (found.1 :: ·) := by
      intro found hfound
      obtain ⟨below, hentry, -, hchains⟩ := mem_wantedBelowEach.1 ((sortByName_perm _).mem_iff.1 hfound)
      exact ⟨below, hentry, hchains⟩
    rw [wantedBelow, List.pairwise_append, List.pairwise_map, List.pairwise_flatMap]
    refine ⟨?_, ⟨?_, ?_⟩, ?_⟩
    · refine (pairwise_sortByName (nodup_fileNames hnames)).imp_of_mem ?_
      intro a b ha hb hab
      rw [hfiles ha, hfiles hb]
      exact hab
    · intro found hfound
      obtain ⟨below, hentry, hchains⟩ := hdirs hfound
      rw [hchains, List.pairwise_map]
      refine (ih _ hentry).imp_of_mem ?_
      intro xs ys hxs hys hxy
      exact precedes_cons (ne_nil_of_mem_wantedBelow hxs) (ne_nil_of_mem_wantedBelow hys) hxy
    · refine (pairwise_sortByName (nodup_wantedBelowEach hnames)).imp_of_mem ?_
      intro a b ha hb hab xs hxs ys hys
      obtain ⟨below, -, hchains⟩ := hdirs ha
      obtain ⟨other, -, hothers⟩ := hdirs hb
      rw [hchains] at hxs
      rw [hothers] at hys
      obtain ⟨x, hx, rfl⟩ := List.mem_map.1 hxs
      obtain ⟨y, hy, rfl⟩ := List.mem_map.1 hys
      exact precedes_of_lt hab (ne_nil_of_mem_wantedBelow hx) (ne_nil_of_mem_wantedBelow hy)
    · intro xs hxs ys hys
      obtain ⟨file, hfile, rfl⟩ := List.mem_map.1 hxs
      obtain ⟨found, hfound, hys⟩ := List.mem_flatMap.1 hys
      obtain ⟨below, -, hchains⟩ := hdirs hfound
      rw [hchains] at hys
      obtain ⟨y, hy, rfl⟩ := List.mem_map.1 hys
      obtain ⟨z, zs, rfl⟩ := List.exists_cons_of_ne_nil (ne_nil_of_mem_wantedBelow hy)
      rw [hfiles hfile]
      trivial

/-- the order in which directories list their entries does not matter -/
theorem wantedBelow_relisted {t u : Tree} (h : Relisted t u) (ht : t.Distinct) :
    wantedBelow skips wanted u = wantedBelow skips wanted t := by
  have hu := h.distinct ht
  refine eq_of_precedes (pairwise_wantedBelow hu) (pairwise_wantedBelow ht) ?_
  intro names
  have hsame : (∃ content, u.at? names = some (.file content)) ↔ ∃ content, t.at? names = some (.file content) := by
    have hat := at?_relisted h ht names
    generalize t.at? names = a at hat
    generalize u.at? names = b at hat
    cases hat with
    | none => rfl
    | some hvw =>
      rcases hvw.cases with ⟨content, rfl, rfl⟩ | ⟨entries, others, rfl, rfl⟩
      · rfl
      · simp
  rw [mem_wantedBelow hu, mem_wantedBelow ht, hsame]

end Tree

/-! ## Discovered files -/

theorem Path.name_append (root : Path) {names : List String} (h : names ≠ []) :
    (root.append names).name = names.getLast?.getD "" := by
  unfold name append
  rw [List.getLast?_append_of_ne_nil _ h]

theorem Path.append_injective (root : Path) : Function.Injective root.append := by
  intro xs ys h
  exact List.append_cancel_left (congrArg Path.parts h)

/-- whether a file is supported depends on its name only -/
theorem Registry.isSupported_append (r : Registry) (root : Path) {names : List String} (h : names ≠ []) :
    r.isSupported (root.append names) = r.isSupported ⟨"", [names.getLast?.getD ""]⟩ := by
  unfold isSupported Path.suffix
  rw [root.name_append h]
  rfl

theorem Exclusion.skips_eq_false {e : Exclusion} {name : String} :
    e.skips name = false ↔ name.toList.head? ≠ some '.' ∧ name ∉ e.names := by
  simp [skips]

namespace Scanner

theorem discover_dir (s : Scanner) {files : Tree} {root : Path} {entries : List (String × Tree)}
    (h : files.find root = .ok (.dir entries)) : s.discover files root =
      .ok (((Tree.dir entries).wantedBelow s.exclusion.skips fun name =>
        s.registry.isSupported ⟨"", [name]⟩).map root.append) := by
  simp only [discover, ClassNaming.discover, h]

/-- the order in which directories list their entries does not matter, whatever the root is -/
theorem discover_relisted (s : Scanner) {files others : Tree} (h : files.Relisted others) (hfiles : files.Distinct)
    (root : Path) : s.discover others root = s.discover files root := by
  unfold discover ClassNaming.discover
  rcases Tree.find_relisted h hfiles root with ⟨e, hfind, hothers⟩ | ⟨t, u, hfind, hothers, htu, ht⟩
  · simp only [hfind, hothers]
  · rcases htu.cases with ⟨content, rfl, rfl⟩ | ⟨entries, listed, rfl, rfl⟩
    · simp only [hfind, hothers]
    · simp only [hfind, hothers, Tree.wantedBelow_relisted htu ht]

/-- **What is discovered under a directory.** The paths are those of the files below it that are supported and have no
directory on their way from it that is hidden or excluded by name, each once. They stand in the order of a scan: in each
directory its files by name, and then what is below its subdirectories, by their names. And they are the same for every
tree that lists its entries in another order. -/
theorem discover_exact (s : Scanner) {files : Tree} (hfiles : files.Distinct) {root : Path}
    {entries : List (String × Tree)} (hroot : files.find root = .ok (.dir entries)) :
    ∃ found : List (List String),
      s.discover files root = .ok (found.map root.append) ∧
      (∀ names, names ∈ found ↔ (∃ content, (Tree.dir entries).at? names = some (.file content)) ∧
        s.registry.isSupported (root.append names) = true ∧
        ∀ name ∈ names.dropLast, name.toList.head? ≠ some '.' ∧ name ∉ s.exclusion.names) ∧
      (found.map root.append).Nodup ∧
      found.Pairwise Precedes ∧
      ∀ others, files.Relisted others → s.discover others root = .ok (found.map root.append) := by
  have hdistinct : (Tree.dir entries).Distinct := hfiles.of_find hroot
  have hordered : ((Tree.dir entries).wantedBelow s.exclusion.skips fun name =>
      s.registry.isSupported ⟨"", [name]⟩).Pairwise Precedes := Tree.pairwise_wantedBelow hdistinct
  have hdiscover := s.discover_dir hroot
  refine ⟨_, hdiscover, ?_, hordered.nodup.map root.append_injective, hordered, ?_⟩
  · intro names
    simp only [Tree.mem_wantedBelow hdistinct, ← Exclusion.skips_eq_false]
    constructor
    · rintro ⟨hne, hfile, hsupported, hway⟩
      exact ⟨hfile, (s.registry.isSupported_append root hne).trans hsupported, hway⟩
    · rintro ⟨⟨content, hfile⟩, hsupported, hway⟩
      have hne : names ≠ [] := by
        rintro rfl
        cases hfile
      exact ⟨hne, ⟨content, hfile⟩, (s.registry.isSupported_append root hne).symm.trans hsupported, hway⟩
  · intro others h
    rw [s.discover_relisted h hfiles, hdiscover]

/-- files below a hidden directory and below an excluded one are not discovered, and the entries may be listed the other
way round -/
theorem discover_beside_hidden :
    let sheets : Source := ⟨"Sheets", "sheet", [".css"], fun _ => .tokens []⟩
    let s : Scanner := .create .default ⟨[("Sheets", sheets)], [(".css", "Sheets")]⟩ (.adding ["dist"])
    let below : List (String × Tree) := [("z.css", .file []), ("b", .dir [("dist", .dir [("a.css", .file [])]),
      ("x.css", .file [])]), (".git", .dir [("a.css", .file [])]), ("B.css", .file []), ("notes.txt", .file [])]
    let files : Tree := .dir [("web", .dir below)]
    let root : Path := ⟨"", ["web"]⟩
    files.Distinct ∧ files.find root = .ok (.dir below) ∧
      ∃ found : List (List String), s.discover files root = .ok (found.map root.append) ∧
        ["b", "x.css"] ∈ found ∧ [".git", "a.css"] ∉ found ∧ ["b", "dist", "a.css"] ∉ found ∧
        found.Pairwise Precedes ∧
        s.discover (.dir [("web", .dir below.reverse)]) root = .ok (found.map root.append) := by
  intro sheets s below files root
  have hfiles : files.Distinct := by
    have hleaf : Tree.Distinct (.dir [("a.css", .file [])]) := .dir (by decide) (by simp [Tree.Distinct.file])
    have hsub : Tree.Distinct (.dir [("dist", .dir [("a.css", .file [])]), ("x.css", .file [])]) :=
      .dir (by decide) (by simp [Tree.Distinct.file, hleaf])
    refine .dir (by decide) (List.forall_mem_singleton.2 (.dir (by decide) ?_))
    simp [below, Tree.Distinct.file, hleaf, hsub]
  have hroot : files.find root = .ok (.dir below) := by rfl
  obtain ⟨found, hdiscover, hmem, -, hordered, hsame⟩ := discover_exact s hfiles hroot
  have hrelisted : Tree.Relisted (.dir ([] ++ [("web", .dir below)])) (.dir ([] ++ [("web", .dir below.reverse)])) :=
    .entry (.order (List.reverse_perm below).symm)
  refine ⟨hfiles, hroot, found, hdiscover, (hmem _).2 ⟨⟨[], rfl⟩, ?_, ?_⟩, ?_, ?_, hordered, hsame _ hrelisted⟩
  · decide +kernel
  · decide
  · intro h
    exact absurd ((hmem _).1 h).2.2 (by decide)
  · intro h
    exact absurd ((hmem _).1 h).2.2 (by decide)

end Scanner

end ClassNaming
