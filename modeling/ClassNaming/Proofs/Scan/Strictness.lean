/-
What the two flags of the rules do to a whole scan.

The flags have no part in which files are found, how they are read and which tokens they have. Under rules that let
unknown names pass nothing is found. Strict rules find everything that the others find, and besides this the tokens that
the others take for utilities, blocks by their shape among them.

- `classify_flagged`, `refuses_strict`: what strict rules do to the kind of a token and to the tokens they refuse.
- `reportOn_under`: the report on a file under other rules differs in its findings only.
- `scan_inOrder`: a scan one file after the other comes to the reports on the files that are found.
- `addsUtilities`: on one file, the findings under lenient and under strict rules.
- `flags_on_scan`: the four scans side by side.
-/
import ClassNaming.Proofs.Naming.Precedence
import ClassNaming.Proofs.Scan.Findings
import ClassNaming.Proofs.Tasks.InTime

namespace ClassNaming

/-! ## Kinds under strict rules -/

/-- rules with extra utilities and the two flags -/
def Rules.flagged (extra : List (String × Pattern)) (strict allow : Bool) : Rules := ⟨extra, allow, strict⟩

/-- the token is taken for a utility by rules that are not strict -/
def takenAsUtility (extra : List (String × Pattern)) (token : String) : Bool :=
  classify (.flagged extra false false) token == some .utility

section Kinds

variable (extra : List (String × Pattern)) (strict allow : Bool) (token : String)

@[simp] theorem strictBem_flagged : (Rules.flagged extra strict allow).strictBem = strict := rfl

@[simp] theorem allowUnknown_flagged : (Rules.flagged extra strict allow).allowUnknown = allow := rfl

/-- which rules hold does not depend on the flags -/
theorem holds_flagged :
    Kind.holds (.flagged extra strict allow) token = Kind.holds (.flagged extra false false) token := by
  funext k
  cases k <;> rfl

theorem classify_lenient : classify (.flagged extra false false) token =
    precedence.find? (Kind.holds (.flagged extra false false) token) := by
  rw [classify, classifyBy_eq]
  simp

/-- strict rules take the kind from utilities, and give them no other -/
theorem classify_flagged : classify (.flagged extra strict allow) token =
    if takenAsUtility extra token && strict then none else classify (.flagged extra false false) token := by
  rw [takenAsUtility, classify_lenient, classify, classifyBy_eq, holds_flagged]
  cases strict <;> simp

theorem refuses_allowing : (Rules.flagged extra strict true).refuses token = false := by
  rw [Bool.eq_false_iff]
  intro h
  obtain ⟨-, hknown⟩ := (Rules.refuses_iff _ token).1 h
  cases hknown

theorem refuses_lenient : (Rules.flagged extra false false).refuses token =
    (classify (.flagged extra false false) token).isNone := by
  rw [Bool.eq_iff_iff, Rules.refuses_iff, Option.isNone_iff_eq_none]
  exact and_iff_left rfl

/-- strict rules refuse what lenient ones refuse, and what these take for a utility -/
theorem refuses_strict : (Rules.flagged extra true false).refuses token =
    ((Rules.flagged extra false false).refuses token || takenAsUtility extra token) := by
  rw [Bool.eq_iff_iff, Rules.refuses_iff, classify_flagged, refuses_lenient]
  cases takenAsUtility extra token <;> simp

/-- nothing is both refused by lenient rules and taken for a utility -/
theorem not_taken_of_refused {extra : List (String × Pattern)} {token : String}
    (h : (Rules.flagged extra false false).refuses token = true) : takenAsUtility extra token = false := by
  rw [refuses_lenient, Option.isNone_iff_eq_none] at h
  rw [takenAsUtility, h]
  rfl

/-- a utility that has the shape of a block is taken for a utility -/
theorem taken_of_block {extra : List (String × Pattern)} {token : String} (hblock : isBlock token = true)
    (hutility : isUtility (extra.map (·.2)) token = true) : takenAsUtility extra token = true := by
  have hearly : ∀ k ∈ earlyKinds, k.holds (.flagged extra false false) token = false := by
    intro k hk
    rw [Bool.eq_false_iff]
    intro hold
    have hsame : k = .block := holds_unique _ token (ne_of_early hk).1 (by decide) hold hblock
    exact (ne_of_early hk).2 hsame
  rw [takenAsUtility, classify_lenient, admissible_precedence.find?_utility hearly hutility]
  rfl

end Kinds

/-! ## Reports under other rules -/

/-- the report without its findings -/
def FileReport.outline (r : FileReport) : FileReport := { r with findings := [] }

namespace Scanner

/-- the scanner with other rules -/
def under (s : Scanner) (rules : Rules) : Scanner := { s with rules }

/-- the report on a file in a scan: one of its own if the extractor fails -/
def reportOn (s : Scanner) (files : Tree) (p : Path) : FileReport :=
  match (s.fileWork files p).1.outcome with
  | .ok report => report
  | .error cause => s.failedReport p (some (cause.label ++ ": " ++ cause.message))

/-- under other rules a report has the same tokens, and the findings that the rules give on them -/
theorem reportOn_under (s : Scanner) (rules : Rules) (files : Tree) (p : Path) :
    (s.under rules).reportOn files p = { s.reportOn files p with
      findings := (s.under rules).findings p.text (s.reportOn files p).classes } := by
  unfold reportOn fileWork
  have hregistry : (s.under rules).registry = s.registry := rfl
  rw [hregistry]
  cases s.registry.sourceFor? p with
  | none => rfl
  | some source =>
    cases files.readText p with
    | error cause => rfl
    | ok text =>
      simp only [reportText]
      cases source.extract (String.ofList text) with
      | tokens found => rfl
      | fails cause => rfl
      | stalls => rfl

theorem outline_under (s : Scanner) (rules : Rules) (files : Tree) (p : Path) :
    ((s.under rules).reportOn files p).outline = (s.reportOn files p).outline := by
  rw [reportOn_under]
  rfl

theorem findings_under (s : Scanner) (rules : Rules) (files : Tree) (p : Path) :
    ((s.under rules).reportOn files p).findings =
      ((s.reportOn files p).classes.filter rules.refuses).map (Finding.about p.text) := by
  rw [reportOn_under]
  exact (s.under rules).findings_eq p.text _

/-! ## Scans one file after the other -/

theorem discover_of_has (s : Scanner) {files : Tree} {root : Path} (h : files.has root = true) :
    ∃ paths, s.discover files root = .ok paths := by
  unfold Tree.has at h
  unfold discover ClassNaming.discover
  split at h
  · rename_i t ht
    cases t with
    | file content => exact ⟨_, by rw [ht]⟩
    | dir entries => exact ⟨_, by rw [ht]⟩
  · cases h

/-- what takes the place of a file whose task failed -/
def substitute (s : Scanner) (p : Path) (r : TaskResult Slot) : Slot := (s.failedReport p r.error, r.error)

theorem ownSlot_eq (s : Scanner) (files : Tree) (p : Path) :
    (Orchestrator.ownSlot s.substitute p (s.slotWork files p).outcome).1 = s.reportOn files p := by
  simp only [slotWork, reportOn]
  cases (s.fileWork files p).1.outcome <;> rfl

/-- a scan one file after the other has the report on each file that is found, in order -/
theorem scan_inOrder (s : Scanner) {o : Orchestrator} (hrunning : o.stopped = false) (hsequential : o.isEnabled = false)
    {files : Tree} {root : Path} {paths : List Path} (hpaths : s.discover files root = .ok paths) :
    ∃ log, (s.scan o files root).1 = .ok (⟨root.text, paths.map (s.reportOn files)⟩, log) := by
  have hmap : (o.map (s.slotWork files) Path.text (some s.substitute) paths).1 =
      .ok (paths.map fun p => Orchestrator.ownSlot s.substitute p (s.slotWork files p).outcome) := by
    rw [Orchestrator.map_inOrder hrunning hsequential, Orchestrator.mapInOrder_substituted, List.map_map]
    rfl
  have hreports : (paths.map fun p => Orchestrator.ownSlot s.substitute p (s.slotWork files p).outcome).map (·.1) =
      paths.map (s.reportOn files) := by
    rw [List.map_map]
    exact List.map_congr_left fun p _ => s.ownSlot_eq files p
  obtain ⟨slots, o', hslots⟩ : ∃ slots o', o.map (s.slotWork files) Path.text (some s.substitute) paths = (slots, o') :=
    ⟨_, _, rfl⟩
  rw [hslots] at hmap
  obtain rfl : slots = _ := hmap
  unfold substitute at hslots
  rw [← hreports]
  simp only [scan, hpaths, hslots]
  exact ⟨_, rfl⟩

end Scanner

/-! ## The four scans -/

/-- the findings on one file under lenient and under strict rules: those of the lenient rules are the ones whose tokens
are not taken for utilities, and the others are about the tokens of the file that are, in their order -/
structure AddsUtilities (extra : List (String × Pattern)) (lenient strict : FileReport) : Prop where
  kept : lenient.findings = strict.findings.filter fun f => !takenAsUtility extra f.token
  added : (strict.findings.filter fun f => takenAsUtility extra f.token).map (·.token) =
    lenient.classes.filter (takenAsUtility extra)

theorem AddsUtilities.sublist {extra : List (String × Pattern)} {lenient strict : FileReport}
    (h : AddsUtilities extra lenient strict) : lenient.findings.Sublist strict.findings := by
  rw [h.kept]
  exact List.filter_sublist

namespace Scanner

variable (s : Scanner) (extra : List (String × Pattern)) (files : Tree)

theorem classes_under (rules : Rules) (p : Path) :
    ((s.under rules).reportOn files p).classes = (s.reportOn files p).classes := by
  rw [reportOn_under]

/-- **What strict rules add on one file.** -/
theorem addsUtilities (p : Path) : AddsUtilities extra ((s.under (.flagged extra false false)).reportOn files p)
    ((s.under (.flagged extra true false)).reportOn files p) := by
  have hkept : ∀ token ∈ (s.reportOn files p).classes,
      (Rules.flagged extra false false).refuses token =
        (!takenAsUtility extra token && (Rules.flagged extra true false).refuses token) := by
    intro token _
    rw [refuses_strict]
    cases hrefused : (Rules.flagged extra false false).refuses token with
    | true => simp [not_taken_of_refused hrefused]
    | false => cases takenAsUtility extra token <;> rfl
  have hadded : ∀ token ∈ (s.reportOn files p).classes,
      (takenAsUtility extra token && (Rules.flagged extra true false).refuses token) = takenAsUtility extra token := by
    intro token _
    rw [refuses_strict]
    cases takenAsUtility extra token <;> simp
  constructor
  · rw [findings_under, findings_under, Finding.filter_about p.text fun token => !takenAsUtility extra token,
      List.filter_filter, List.filter_congr hkept]
  · rw [findings_under, classes_under, Finding.filter_about, Finding.tokens_about, List.filter_filter,
      List.filter_congr hadded]

/-- the findings of lenient rules come among those of strict ones, in their order -/
theorem findings_sublist (paths : List Path) :
    (paths.flatMap fun p => ((s.under (.flagged extra false false)).reportOn files p).findings).Sublist
      (paths.flatMap fun p => ((s.under (.flagged extra true false)).reportOn files p).findings) := by
  induction paths with
  | nil => exact List.nil_sublist _
  | cons p paths ih =>
    rw [List.flatMap_cons, List.flatMap_cons]
    exact (s.addsUtilities extra files p).sublist.append ih

/-- nothing is found if unknown names pass -/
theorem findings_allowing (strict : Bool) (p : Path) :
    ((s.under (.flagged extra strict true)).reportOn files p).findings = [] := by
  rw [findings_under, List.map_eq_nil_iff, List.filter_eq_nil_iff]
  intro token _
  rw [refuses_allowing]
  decide

end Scanner

/-- **The flags on a whole scan.** Files are scanned one after the other, with any sources and any extra utilities. The
scans under the four settings of the flags all come to a result, and they report the same files in the same order, with
the same sources, tokens and errors. Where unknown names pass, nothing is found. Where they do not, the findings under
lenient rules stand in their order among those under strict rules, messages included. File by file, the others are about
the tokens that are taken for utilities, in the order of the tokens; utilities that have the shape of a block are among
these. -/
theorem flags_on_scan (s : Scanner) (extra : List (String × Pattern)) {o : Orchestrator} (hrunning : o.stopped = false)
    (hsequential : o.isEnabled = false) {files : Tree} {root : Path} (hroot : files.has root = true) :
    ∃ result : (strict allow : Bool) → ScanResult,
      (∀ strict allow, ∃ log,
        ((s.under (.flagged extra strict allow)).scan o files root).1 = .ok (result strict allow, log)) ∧
      (∀ strict allow, (result strict allow).root = root.text ∧
        (result strict allow).files.map FileReport.outline = (result false false).files.map FileReport.outline) ∧
      (∀ strict, (result strict true).findings = [] ∧ (result strict true).passed = true) ∧
      (result false false).findings.Sublist (result true false).findings ∧
      List.Forall₂ (AddsUtilities extra) (result false false).files (result true false).files ∧
      ∀ token, isBlock token = true → isUtility (extra.map (·.2)) token = true → takenAsUtility extra token = true := by
  obtain ⟨paths, hpaths⟩ := s.discover_of_has hroot
  refine ⟨fun strict allow => ⟨root.text, paths.map ((s.under (.flagged extra strict allow)).reportOn files)⟩,
    ?_, ?_, ?_, ?_, ?_, ?_⟩
  · intro strict allow
    exact (s.under _).scan_inOrder hrunning hsequential hpaths
  · intro strict allow
    refine ⟨rfl, ?_⟩
    simp only [List.map_map]
    refine List.map_congr_left ?_
    intro p _
    exact (s.outline_under _ files p).trans (s.outline_under _ files p).symm
  · intro strict
    have hnone : (ScanResult.mk root.text
        (paths.map ((s.under (.flagged extra strict true)).reportOn files))).findings = [] := by
      rw [ScanResult.findings, List.flatMap_map, List.flatMap_eq_nil_iff]
      intro p _
      exact s.findings_allowing extra files strict p
    refine ⟨hnone, ?_⟩
    rw [ScanResult.passed, ScanResult.invalidCount, hnone]
    rfl
  · simp only [ScanResult.findings, List.flatMap_map]
    exact s.findings_sublist extra files paths
  · simp only [List.forall₂_map_left_iff, List.forall₂_map_right_iff]
    exact List.forall₂_same.2 fun p _ => s.addsUtilities extra files p
  · intro token hblock hutility
    exact taken_of_block hblock hutility

/-- one page, and a utility of the catalog that has the shape of a block -/
theorem flags_on_page_scan :
    let s : Scanner := .create .default .builtin (.adding [])
    let o : Orchestrator := ⟨{ enabled := .bool false }, none, false⟩
    let files : Tree := .dir [("index.html", .file (Utf8.encode repeatingPage.text))]
    o.stopped = false ∧ o.isEnabled = false ∧ files.has .here = true ∧
      ∃ result : (strict allow : Bool) → ScanResult,
        (∀ strict allow, ∃ log,
          ((s.under (.flagged [] strict allow)).scan o files .here).1 = .ok (result strict allow, log)) ∧
        (result true true).passed = true ∧
        List.Forall₂ (AddsUtilities []) (result false false).files (result true false).files ∧
        takenAsUtility [] "flex" = true := by
  intro s o files
  have hroot : files.has .here = true := rfl
  obtain ⟨result, hscan, -, hallowing, -, hfiles, hblocks⟩ := flags_on_scan s [] (o := o) rfl rfl hroot
  have hblock : isBlock "flex" = true := by decide +kernel
  have hutility : isUtility [] "flex" = true := by decide +kernel
  exact ⟨rfl, rfl, hroot, result, hscan, (hallowing true).2, hfiles, hblocks "flex" hblock hutility⟩

end ClassNaming
