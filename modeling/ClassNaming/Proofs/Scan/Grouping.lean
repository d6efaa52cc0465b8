/-
The findings of a scan, file by file.

Grouping by path loses no finding only if no two files have the same path as text. The files of a scan have different
paths because names have no slash, so that the names can be read off the text.

- `discover_texts`: the paths that are discovered have different texts.
- `byFile_eq`: the groups are the files with findings, in the order of the scan.
- `findings_byFile`: the groups have all findings, in order.
-/
import ClassNaming.Proofs.Scan.Discovery
import ClassNaming.Proofs.Scan.Strictness
import ClassNaming.Proofs.Table

namespace ClassNaming

/-! ## Names without slashes -/

namespace Tree

/-- no name has a slash, at any depth -/
inductive Slashless : Tree → Prop where
  | file (content : List UInt8) : Slashless (.file content)
  | dir {entries : List (String × Tree)} (names : ∀ e ∈ entries, '/' ∉ e.1.toList)
      (below : ∀ e ∈ entries, Slashless e.2) : Slashless (.dir entries)

theorem Slashless.of_at? {t v : Tree} (ht : t.Slashless) {names : List String} (h : t.at? names = some v) :
    v.Slashless ∧ ∀ name ∈ names, '/' ∉ name.toList := by
  induction names generalizing t with
  | nil =>
    obtain rfl : t = v := by simpa [at?] using h
    exact ⟨ht, by simp⟩
  | cons name names ih =>
    obtain ⟨u, hu, hv⟩ := Option.bind_eq_some_iff.1 h
    cases ht with
    | file content => cases hu
    | @dir entries hnames hbelow =>
      have hentry : (name, u) ∈ entries := by
        obtain ⟨before, after, rfl, -⟩ := List.lookup_eq_some_iff.1 hu
        simp
      obtain ⟨hslashless, hrest⟩ := ih (hbelow _ hentry) hv
      exact ⟨hslashless, List.forall_mem_cons.2 ⟨hnames _ hentry, hrest⟩⟩

theorem exists_at?_of_find {t v : Tree} {p : Path} (h : t.find p = .ok v) : ∃ trail, t.at? trail = some v := by
  unfold find at h
  cases hanchor : p.anchor.isEmpty with
  | false => simp [hanchor, bind, Except.bind, throw, throwThe, MonadExceptOf.throw] at h
  | true =>
    simp only [hanchor, Bool.not_true, Bool.false_eq_true, if_false, bind, Except.bind, pure, Except.pure] at h
    cases hlocate : t.locate [] p.parts with
    | error e => simp [hlocate] at h
    | ok trail =>
      cases hat : t.at? trail with
      | none => simp [hlocate, hat, throw, throwThe, MonadExceptOf.throw] at h
      | some u =>
        obtain rfl : u = v := by simpa [hlocate, hat] using h
        exact ⟨trail, hat⟩

end Tree

/-! ## Paths as texts -/

namespace Path

theorem text_append (root : Path) {names : List String} (h : names ≠ []) :
    (root.append names).text = (root.append []).anchor ++ "/".intercalate (root.parts ++ names) := by
  simp [text, append, h]

/-- paths below one root that have the same text lead through the same names -/
theorem text_append_injective (root : Path) {xs ys : List String} (hxs : xs ≠ []) (hys : ys ≠ [])
    (hxslash : ∀ name ∈ xs, '/' ∉ name.toList) (hyslash : ∀ name ∈ ys, '/' ∉ name.toList)
    (h : (root.append xs).text = (root.append ys).text) : xs = ys := by
  rw [text_append root hxs, text_append root hys, String.append_right_inj] at h
  have hjoined : "/".intercalate xs = "/".intercalate ys := by
    by_cases hparts : root.parts = []
    · simpa [hparts] using h
    · rwa [String.intercalate_append_of_ne_nil hparts hxs, String.intercalate_append_of_ne_nil hparts hys,
        String.append_right_inj] at h
  have hchars := congrArg (fun s => s.toList.splitOn '/') hjoined
  simp only [String.toList_intercalate] at hchars
  have hsplit : ∀ names : List String, names ≠ [] → (∀ name ∈ names, '/' ∉ name.toList) →
      (("/".toList).intercalate (names.map String.toList)).splitOn '/' = names.map String.toList :=
    fun names hne hslash => List.splitOn_intercalate '/' (List.forall_mem_map.2 hslash) (by simpa using hne)
  rw [hsplit xs hxs hxslash, hsplit ys hys hyslash] at hchars
  exact List.map_injective_iff.2 (fun _ _ => String.toList_inj.1) hchars

end Path

namespace Scanner

/-- the paths that are discovered have different texts -/
theorem discover_texts (s : Scanner) {files : Tree} (hfiles : files.Distinct) (hnames : files.Slashless) {root : Path}
    {paths : List Path} (h : s.discover files root = .ok paths) : (paths.map Path.text).Nodup := by
  cases hfind : files.find root with
  | error e => simp [discover, ClassNaming.discover, hfind] at h
  | ok t =>
    cases t with
    | file content =>
      have hpaths : paths = if s.registry.isSupported root then [root] else [] := by
        simpa [discover, ClassNaming.discover, hfind] using h.symm
      rw [hpaths]
      split_ifs <;> simp
    | dir entries =>
      obtain ⟨trail, htrail⟩ := Tree.exists_at?_of_find hfind
      have hbelow := (hnames.of_at? htrail).1
      rw [s.discover_dir hfind] at h
      obtain rfl : _ = paths := Except.ok.inj h
      have hdistinct := hfiles.of_find hfind
      rw [List.map_map]
      refine List.Nodup.map_on ?_ (Tree.pairwise_wantedBelow hdistinct).nodup
      intro xs hxs ys hys htext
      obtain ⟨hxne, ⟨_, hxat⟩, -⟩ := (Tree.mem_wantedBelow hdistinct).1 hxs
      obtain ⟨hyne, ⟨_, hyat⟩, -⟩ := (Tree.mem_wantedBelow hdistinct).1 hys
      exact root.text_append_injective hxne hyne (hbelow.of_at? hxat).2 (hbelow.of_at? hyat).2 htext

/-! ## Reports and their files -/

theorem path_reportOn (s : Scanner) (files : Tree) (p : Path) : (s.reportOn files p).path = p.text := by
  unfold reportOn fileWork
  cases s.registry.sourceFor? p with
  | none => rfl
  | some source =>
    cases files.readText p with
    | error cause => rfl
    | ok text =>
      simp only [reportText]
      cases source.extract (String.ofList text) <;> rfl

theorem findings_reportOn (s : Scanner) (files : Tree) (p : Path) : (s.reportOn files p).findings =
    ((s.reportOn files p).classes.filter s.rules.refuses).map (Finding.about p.text) := by
  simpa [under] using s.findings_under s.rules files p

/-- a finding is about the file of its report -/
theorem file_of_mem_findings (s : Scanner) (files : Tree) (p : Path) :
    ∀ f ∈ (s.reportOn files p).findings, f.file = (s.reportOn files p).path := by
  rw [findings_reportOn, path_reportOn]
  exact List.forall_mem_map.2 fun _ _ => rfl

theorem length_findings_le (s : Scanner) (files : Tree) (p : Path) :
    (s.reportOn files p).findings.length ≤ (s.reportOn files p).classes.length := by
  rw [findings_reportOn, List.length_map]
  exact List.length_filter_le _ _

end Scanner

/-! ## Groups -/

namespace ScanResult

/-- the reports that have findings, each with the path of its file -/
def groupsOf (files : List FileReport) : List (String × List Finding) :=
  (files.filter fun f => !f.findings.isEmpty).map fun f => (f.path, f.findings)

theorem foldl_set {files : List FileReport} {groups : List (String × List Finding)}
    (h : (groups.map (·.1) ++ files.map (·.path)).Nodup) :
    files.foldl (fun groups f => if f.findings.isEmpty then groups else Table.set f.path f.findings groups) groups =
      groups ++ groupsOf files := by
  induction files generalizing groups with
  | nil => simp [groupsOf]
  | cons f files ih =>
    rw [List.map_cons, List.nodup_append] at h
    obtain ⟨hgroups, hfiles, hapart⟩ := h
    obtain ⟨hnew, hrest⟩ := List.nodup_cons.1 hfiles
    rw [List.foldl_cons]
    by_cases hempty : f.findings.isEmpty = true
    · rw [if_pos hempty, ih (List.nodup_append.2 ⟨hgroups, hrest, fun a ha b hb =>
        hapart a ha b (List.mem_cons_of_mem _ hb)⟩)]
      simp [groupsOf, hempty]
    · have hpath : f.path ∉ groups.map (·.1) := fun hc => hapart _ hc _ List.mem_cons_self rfl
      rw [if_neg hempty, Table.set_of_notMem hpath, ih]
      · simp [groupsOf, hempty]
      · rw [List.map_append, List.map_singleton, List.append_assoc, List.singleton_append]
        exact List.nodup_append.2 ⟨hgroups, hfiles, hapart⟩

/-- the groups are the files with findings, in their order, if files have different paths -/
theorem byFile_eq {r : ScanResult} (h : (r.files.map (·.path)).Nodup) : r.byFile = groupsOf r.files :=
  foldl_set (by simpa using h)

theorem paths_groupsOf (files : List FileReport) :
    ((groupsOf files).map (·.1)).Sublist (files.map (·.path)) := by
  rw [groupsOf, List.map_map]
  exact List.filter_sublist.map _

theorem flatMap_groupsOf (files : List FileReport) : (groupsOf files).flatMap (·.2) = files.flatMap (·.findings) := by
  induction files with
  | nil => rfl
  | cons f files ih =>
    rw [List.flatMap_cons, ← ih]
    by_cases hempty : f.findings = [] <;> simp [groupsOf, hempty]

theorem ne_nil_of_mem_byFile {r : ScanResult} (h : (r.files.map (·.path)).Nodup) {g : String × List Finding}
    (hg : g ∈ r.byFile) : g.2 ≠ [] := by
  rw [byFile_eq h] at hg
  obtain ⟨f, hf, rfl⟩ := List.mem_map.1 hg
  simpa using (List.mem_filter.1 hf).2

/-- the groups have all findings, in order -/
theorem findings_byFile {r : ScanResult} (h : (r.files.map (·.path)).Nodup) : r.byFile.flatMap (·.2) = r.findings := by
  rw [byFile_eq h, flatMap_groupsOf, findings]

end ScanResult

end ClassNaming
