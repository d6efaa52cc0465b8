/-
The views of one scan that a check gives.

A check scans the files below a directory and reports the same findings as groups, as counts, as a status, as its exit
code and as JSON.

- `Agreeing`: what it means for the groups, the counts and the status to agree with the scan.
- `agreeing`: they agree if no two files have the same path as text.
- `cleaned_scanReport`: JSON has the result of the scan and nothing else.
- `printed_json`: what a check prints as JSON.
- `check_agrees`: the whole check.
- `check_ascii`: a console that lacks a character of the root, so that what is printed is another result.
-/
import ClassNaming.Cli.Run
import ClassNaming.Proofs.Json.Documents
import ClassNaming.Proofs.Report.Rendering
import ClassNaming.Proofs.Scan.Grouping

namespace ClassNaming

/-! ## Members of values -/

/-- the value of a member of a mapping -/
def Value.member? (v : Value) (name : String) : Option Value :=
  match v with
  | .map es => Entries.field? es name
  | _ => none

/-- the items of a list that is a member of a mapping -/
def Value.itemsOf (v : Value) (name : String) : List Value :=
  match v.member? name with
  | some (.list items) => items
  | _ => []

/-! ## Counts -/

namespace ScanResult

/-- the number of files and of classes can be read in JSON: they have no more digits than such a number may have -/
structure Countable (r : ScanResult) : Prop where
  files : r.files.length < 10 ^ maxIntDigits
  classes : r.totalClasses < 10 ^ maxIntDigits

theorem length_le_totalClasses {r : ScanResult} {f : FileReport} (h : f ∈ r.files) :
    f.classes.length ≤ r.totalClasses := by
  rw [totalClasses, List.flatMap_def]
  exact (List.sublist_flatten_of_mem (List.mem_map_of_mem h)).length_le

theorem invalidCount_le {r : ScanResult} (h : ∀ f ∈ r.files, f.findings.length ≤ f.classes.length) :
    r.invalidCount ≤ r.totalClasses := by
  rw [invalidCount, findings, totalClasses, List.length_flatMap, List.length_flatMap]
  exact List.sum_le_sum h

theorem passed_iff {r : ScanResult} (h : (r.files.map (·.path)).Nodup) : r.passed = true ↔ r.byFile = [] := by
  rw [passed, invalidCount, beq_iff_eq, List.length_eq_zero_iff, ← findings_byFile h, List.flatMap_eq_nil_iff]
  constructor
  · intro hnone
    refine List.eq_nil_iff_forall_not_mem.2 fun g hg => ?_
    exact ne_nil_of_mem_byFile h hg (hnone g hg)
  · intro hempty
    simp [hempty]

end ScanResult

/-! ## The result as a value -/

/-- JSON leaves nothing of the value out, and it has the value if its numbers are short -/
structure Reported (short : Prop) (v : Value) : Prop where
  plain : short → Json.Plain v
  shown : Public v

section

variable {short : Prop}

theorem reported_text (s : String) : Reported short (.text s) := ⟨fun _ => .scalar (.text s), .scalar (.text s)⟩

theorem reported_nat {n : ℕ} (h : short → n < 10 ^ maxIntDigits) : Reported short (.nat n) := by
  refine ⟨fun hshort => .scalar (.int ?_), .scalar _⟩
  have hdigits := (Nat.length_toDigits_le_iff (b := 10) (k := maxIntDigits) (by decide) (by decide)).2 (h hshort)
  simpa [digitText] using hdigits

theorem reported_list {items : List Value} (h : ∀ v ∈ items, Reported short v) : Reported short (.list items) :=
  ⟨fun hshort => .list fun v hv => (h v hv).plain hshort, .list fun v hv => (h v hv).shown⟩

theorem reported_object {fields : List (String × Value)} (hd : (fields.map Prod.fst).Nodup)
    (hnames : ∀ name ∈ fields.map Prod.fst, isInternal (.text name) = false) (h : ∀ f ∈ fields, Reported short f.2) :
    Reported short (.object fields) where
  plain := fun hshort => Json.plain_object hd fun f hf => (h f hf).plain hshort
  shown := .map (List.forall_mem_map.2 fun _ hf => hnames _ (List.mem_map_of_mem hf))
    (List.forall_mem_map.2 fun f hf => (h f hf).shown)

theorem Finding.reported_value (f : Finding) : Reported short f.value :=
  reported_object (by simp) (by simp; decide) (by simp [reported_text])

theorem FileReport.reported_value {f : FileReport} (h : short → f.classes.length < 10 ^ maxIntDigits) :
    Reported short f.value := by
  have hfindings : Reported short (.list (f.findings.map Finding.value)) :=
    reported_list (List.forall_mem_map.2 fun g _ => g.reported_value)
  have hcount := reported_nat h
  unfold value
  cases f.error with
  | none => exact reported_object (by simp) (by simp; decide) (by simp [reported_text, hcount, hfindings])
  | some e =>
    dsimp only
    split_ifs <;>
      exact reported_object (by simp) (by simp; decide) (by simp [reported_text, hcount, hfindings])

end

theorem ScanResult.reported_value {r : ScanResult} (h : ∀ f ∈ r.files, f.findings.length ≤ f.classes.length) :
    Reported r.Countable r.value := by
  have hfiles : Reported r.Countable (.list (r.files.map FileReport.value)) :=
    reported_list (List.forall_mem_map.2 fun f hf => f.reported_value fun hr =>
      lt_of_le_of_lt (length_le_totalClasses hf) hr.classes)
  have hsummary : Reported r.Countable (.object [("files", .nat r.files.length), ("classes", .nat r.totalClasses),
      ("invalid", .nat r.invalidCount), ("unreadable", .nat r.unreadable.length)]) := by
    refine reported_object (by simp) (by simp; decide) ?_
    simp only [List.forall_mem_cons, List.not_mem_nil, false_imp_iff, implies_true, and_true]
    exact ⟨reported_nat fun hr => hr.files, reported_nat fun hr => hr.classes,
      reported_nat fun hr => lt_of_le_of_lt (invalidCount_le h) hr.classes,
      reported_nat fun hr => lt_of_le_of_lt (List.length_filter_le _ _) hr.files⟩
  exact reported_object (by simp) (by simp; decide) (by simp [reported_text, hsummary, hfiles])

namespace Cli

/-! ## The report on a scan -/

/-- the members that steer the layout of the report on a scan -/
def layoutOf (r : ScanResult) : Entries :=
  [(.text "_groups", .list (r.byFile.map fun g => groupValue g.1 g.2)),
    (.text "_metrics", .object [("Files checked", .nat r.files.length), ("Classes found", .nat r.totalClasses),
      ("Invalid classes", .nat r.invalidCount), ("Unreadable files", .nat r.unreadable.length)]),
    (.text "_warnings", .texts (r.unreadable.map fun f =>
      "Could not scan " ++ f.path ++ ": " ++ (Value.textOrNull f.error).shown)),
    (.text "_status", .object [("ok", .bool r.passed), ("message", .text (if r.passed then "All classes are valid!"
      else "Found " ++ natText r.invalidCount ++ " invalid class(es)"))])]

/-- the members of the result, and then those that steer the layout -/
theorem data_scanReport (r : ScanResult) : ∃ es, r.value = .map es ∧ (scanReport r).data = .map (es ++ layoutOf r) :=
  ⟨_, rfl, rfl⟩

/-- the JSON form of the report is the result of the scan -/
theorem cleaned_scanReport {r : ScanResult} (h : Public r.value) : (scanReport r).data.cleaned = r.value := by
  obtain ⟨es, hvalue, hdata⟩ := data_scanReport r
  rw [hvalue] at h
  rw [hdata, hvalue]
  exact cleaned_steered h (by simp [layoutOf]; decide)

theorem laid_scanReport (r : ScanResult) : ∃ es, (scanReport r).data = .map es ∧ Laid es := by
  refine ⟨_, rfl, ⟨_, rfl, ?_⟩, rfl, ⟨_, rfl⟩, ⟨_, rfl⟩, ⟨_, rfl⟩⟩
  refine List.forall_mem_map.2 fun g _ => ⟨g.1, _, rfl, List.forall_mem_map.2 fun f _ => ?_⟩
  exact ⟨f.token, f.message, false, rfl⟩

/-- the report is rendered in every form that can be asked for -/
theorem exists_render_scanReport (s : Session) (r : ScanResult) {word : String} (h : word ∈ Format.names) :
    ∃ text, s.render (scanReport r) (.text word) = .ok text := by
  obtain ⟨es, hdata, hlaid⟩ := laid_scanReport r
  refine Report.exists_render _ hdata hlaid ?_ rfl h
  cases hgroups : (r.byFile.map fun g => groupValue g.1 g.2).isEmpty with
  | true => exact ⟨"summary", by decide, by simp [scanReport, hgroups]⟩
  | false => exact ⟨"list", by decide, by simp [scanReport, hgroups]⟩

/-- as JSON the report is the text of the result -/
theorem render_json {r : ScanResult} (h : Public r.value) (s : Session) :
    s.render (scanReport r) (.text "json") = .ok (Json.pretty r.value) := by
  rw [← cleaned_scanReport h]
  rfl

/-- the views of a scan agree with its result -/
structure Agreeing (r : ScanResult) : Prop where
  /-- the groups are the findings by file -/
  groups : (scanReport r).data.itemsOf "_groups" = r.byFile.map fun g => groupValue g.1 g.2
  /-- no two groups have the same path -/
  paths : (r.byFile.map (·.1)).Nodup
  /-- the groups stand in the order in which the files were scanned -/
  order : (r.byFile.map (·.1)).Sublist (r.files.map (·.path))
  /-- the findings of the groups, one group after the other, are all findings of the scan -/
  findings : r.byFile.flatMap (·.2) = r.findings
  /-- a group has findings, and they are about its file -/
  own : ∀ g ∈ r.byFile, g.2 ≠ [] ∧ ∀ f ∈ g.2, f.file = g.1
  /-- the sizes of the groups add up to the number of findings -/
  sizes : (((scanReport r).data.itemsOf "_groups").map fun group => (group.itemsOf "items").length).sum = r.invalidCount
  /-- which is the number that the metrics state -/
  metric : ((scanReport r).data.member? "_metrics").bind (·.member? "Invalid classes") = some (.nat r.invalidCount)
  /-- and that of all findings that the files of the result list -/
  lists : ((r.value.itemsOf "files").map fun file => (file.itemsOf "invalid").length).sum = r.invalidCount
  /-- the status is good exactly if there are no groups -/
  status : ∃ ok, ((scanReport r).data.member? "_status").bind (·.member? "ok") = some (.bool ok) ∧
    (ok = true ↔ (scanReport r).data.itemsOf "_groups" = [])

theorem itemsOf_groups (r : ScanResult) :
    (scanReport r).data.itemsOf "_groups" = r.byFile.map fun g => groupValue g.1 g.2 := rfl

theorem length_groupValue (path : String) (findings : List Finding) :
    ((groupValue path findings).itemsOf "items").length = findings.length :=
  List.length_map _

theorem length_invalid (f : FileReport) : (f.value.itemsOf "invalid").length = f.findings.length := by
  have hitems : f.value.itemsOf "invalid" = f.findings.map Finding.value := rfl
  rw [hitems, List.length_map]

/-- **The views of a scan agree** whenever its files have different paths and each finding is about the file of its
report. -/
theorem agreeing {r : ScanResult} (h : (r.files.map (·.path)).Nodup) (hown : ∀ f ∈ r.files, ∀ g ∈ f.findings, g.file = f.path) :
    Agreeing r where
  groups := itemsOf_groups r
  paths := by
    rw [ScanResult.byFile_eq h]
    exact (ScanResult.paths_groupsOf _).nodup h
  order := by
    rw [ScanResult.byFile_eq h]
    exact ScanResult.paths_groupsOf _
  findings := ScanResult.findings_byFile h
  own := fun g hg => by
    refine ⟨ScanResult.ne_nil_of_mem_byFile h hg, ?_⟩
    rw [ScanResult.byFile_eq h] at hg
    obtain ⟨f, hf, rfl⟩ := List.mem_map.1 hg
    exact hown f (List.mem_filter.1 hf).1
  sizes := by
    rw [itemsOf_groups, List.map_map, ScanResult.invalidCount, ← ScanResult.findings_byFile h, List.length_flatMap]
    exact congrArg List.sum (List.map_congr_left fun g _ => length_groupValue g.1 g.2)
  metric := rfl
  lists := by
    have hfiles : r.value.itemsOf "files" = r.files.map FileReport.value := rfl
    rw [hfiles, List.map_map, ScanResult.invalidCount, ScanResult.findings, List.length_flatMap]
    exact congrArg List.sum (List.map_congr_left fun f _ => length_invalid f)
  status := ⟨r.passed, rfl, by rw [itemsOf_groups, List.map_eq_nil_iff, ScanResult.passed_iff h]⟩

/-! ## Printing -/

/-- the texts that a run prints -/
def Ending.printed (e : Ending) : List String :=
  e.written.filterMap fun
    | .out text => some text
    | _ => none

theorem printed_after_logged (e : Ending) (verbose : Bool) (entries : List LogEntry) :
    (e.after (logged verbose entries)).printed = e.printed := by
  simp [Ending.printed, Ending.after, logged, List.filterMap_map]

/-- a text that is made is printed as far as the encoding goes -/
theorem print_eq (h : Host) (text : String) (code : Nat) : h.print (.ok text) code =
    ⟨.ok code, [.out (String.ofList (h.encoding.safeText text.toList) ++ "\n")], h.files⟩ := by
  have hend : h.encoding.check "\n".toList = .ok () := by cases h.encoding <;> rfl
  have hprint : h.encoding.safePrint text "\n" = .ok (String.ofList (h.encoding.safeText text.toList) ++ "\n") := by
    rw [Encoding.safePrint, hend]
    rfl
  simp only [Host.print, bind, Except.bind, hprint]

/-- a text that the encoding has is printed as it is -/
theorem safeText_of_writes {e : Encoding} {cs : List Char} (h : e.writes cs = true) : e.safeText cs = cs := by
  rw [Encoding.safeText, if_pos h]

/-- a line of JSON is read as the value that it was written for -/
theorem readChars_line {v : Value} (h : Json.Plain v) :
    Json.readChars (String.ofList (Json.pretty v).toList ++ "\n").toList = .ok v := by
  rw [String.ofList_toList, String.toList_append]
  exact Json.readChars_pretty h (by simp [Json.isSpace])

/-! ## Checks -/

/-- the scanner of a check -/
def scannerOf (rules : Rules) (s : Session) : Scanner := .create rules .builtin (.adding s.settings.excludeDirs)

/-- the root of the scan of a check -/
def rootOf (a : Arguments) : Path := .ofText ((a.operands.getD []).headD "")

section

variable {h : Host} {s s' s'' : Session} {a : Arguments} {rules : Rules} {workers : Orchestrator}

theorem check_eq (verbose : Bool) (hrules : s.commandNaming (a.has "strict") (a.has "allow_unknown") = (.ok rules, s'))
    (hworkers : s'.workers = (.ok workers, s'')) {result : ScanResult} {log : List LogEntry}
    (hscan : ((scannerOf rules s'').scan workers h.files (rootOf a)).1 = .ok (result, log)) :
    check h verbose s a = (h.print (s''.render (scanReport result) (s''.format (a.value? "format")))
      (if result.passed then 0 else 1)).after (logged verbose log) := by
  unfold scannerOf rootOf at hscan
  simp only [check, hrules, hworkers, hscan]

/-- as JSON a check prints the result as far as the encoding of the console goes -/
theorem printed_json (verbose : Bool) (hrules : s.commandNaming (a.has "strict") (a.has "allow_unknown") = (.ok rules, s'))
    (hworkers : s'.workers = (.ok workers, s'')) {result : ScanResult} {log : List LogEntry}
    (hscan : ((scannerOf rules s'').scan workers h.files (rootOf a)).1 = .ok (result, log)) (hshown : Public result.value)
    (hjson : a.value? "format" = some "json") : (check h verbose s a).printed =
      [String.ofList (h.encoding.safeText (Json.pretty result.value).toList) ++ "\n"] := by
  have hformat : s''.format (a.value? "format") = .text "json" := by
    rw [hjson]
    rfl
  rw [check_eq verbose hrules hworkers hscan, hformat, render_json hshown, print_eq, printed_after_logged]
  rfl

/-- **The views of a check agree.** A check scans one file after the other below a root that is there, in a tree as file
systems have them. It comes to a result: its groups, its metrics, its status and the lists of the result agree, and in
each of the forms that can be asked for the exit code is 0 if there are no groups and 1 if there are. As JSON it prints
the result as far as the encoding of the console goes. Where the console has all characters of it, what is printed is
read as exactly the result, in which the counts have no more digits than are read. -/
theorem check_agrees (verbose : Bool) (hrules : s.commandNaming (a.has "strict") (a.has "allow_unknown") = (.ok rules, s'))
    (hworkers : s'.workers = (.ok workers, s'')) (hrunning : workers.stopped = false)
    (hsequential : workers.isEnabled = false) (hfiles : h.files.Distinct) (hnames : h.files.Slashless)
    (hroot : h.files.has (rootOf a) = true) :
    ∃ result log, ((scannerOf rules s'').scan workers h.files (rootOf a)).1 = .ok (result, log) ∧ Agreeing result ∧
      (∀ word ∈ Format.names, s''.format (a.value? "format") = .text word → (check h verbose s a).code =
        .ok (if ((scanReport result).data.itemsOf "_groups").isEmpty then 0 else 1)) ∧
      (a.value? "format" = some "json" →
        (check h verbose s a).printed =
          [String.ofList (h.encoding.safeText (Json.pretty result.value).toList) ++ "\n"] ∧
        (h.encoding.writes (Json.pretty result.value).toList = true → result.Countable →
          ∃ text, (check h verbose s a).printed = [text] ∧ Json.readChars text.toList = .ok result.value)) := by
  obtain ⟨paths, hpaths⟩ := (scannerOf rules s'').discover_of_has hroot
  obtain ⟨log, hscan⟩ := (scannerOf rules s'').scan_inOrder hrunning hsequential hpaths
  have htexts := (scannerOf rules s'').discover_texts hfiles hnames hpaths
  set result : ScanResult := ⟨(rootOf a).text, paths.map ((scannerOf rules s'').reportOn h.files)⟩ with hresult
  have hdistinct : (result.files.map (·.path)).Nodup := by
    simpa [hresult, Function.comp_def, Scanner.path_reportOn] using htexts
  have hown : ∀ f ∈ result.files, ∀ g ∈ f.findings, g.file = f.path :=
    List.forall_mem_map.2 fun p _ => Scanner.file_of_mem_findings _ _ p
  have hcounts : ∀ f ∈ result.files, f.findings.length ≤ f.classes.length :=
    List.forall_mem_map.2 fun p _ => Scanner.length_findings_le _ _ p
  refine ⟨result, log, hscan, agreeing hdistinct hown, ?_, ?_⟩
  · intro word hword hformat
    obtain ⟨text, htext⟩ := exists_render_scanReport s'' result hword
    have hstatus : result.passed = ((scanReport result).data.itemsOf "_groups").isEmpty := by
      rw [Bool.eq_iff_iff, ScanResult.passed_iff hdistinct, itemsOf_groups, List.isEmpty_map, List.isEmpty_iff]
    rw [check_eq verbose hrules hworkers hscan, hformat, htext, print_eq, hstatus]
    rfl
  · intro hjson
    have hreported := ScanResult.reported_value hcounts
    have hprinted := printed_json verbose hrules hworkers hscan hreported.shown hjson
    refine ⟨hprinted, fun hwrites hcountable => ⟨_, hprinted, ?_⟩⟩
    rw [safeText_of_writes hwrites]
    exact readChars_line (hreported.plain hcountable)

end

/-- UTF-8 has all characters -/
theorem writes_utf8 (cs : List Char) : Encoding.utf8.writes cs = true := List.all_eq_true.2 fun _ _ => rfl

/-! ### Two consoles -/

/-- workers that do one task after the other -/
def inOrder : Orchestrator := ⟨{ enabled := .bool false }, none, false⟩

/-- a run in a directory with these files, on a console of this encoding -/
def hostOf (files : Tree) (encodingName : String) (encoding : Encoding) : Host where
  env := ⟨[]⟩
  encodingName := encodingName
  encoding := encoding
  home := .ofText "home"
  files := files

/-- a session with the settings and rules that hold when nothing is stated -/
def plainSession (h : Host) : Session where
  console := h.console
  project := .here
  manager := .create h.env h.home .here
  settings := {}
  shared := true
  symbols := .ascii
  rules := some .default
  orchestrator := some inOrder

/-- the arguments of a check that prints JSON -/
def jsonArguments (root : String) : Arguments := { values := [("format", "json")], operands := some [root] }

/-- the bytes of a page with one class -/
def pageBytes : List UInt8 := Utf8.encode "<p class='B'>".toList

/-- a page in the directory that is checked -/
def pageHost : Host := hostOf (.dir [("index.html", .file pageBytes)]) "utf-8" .utf8

/-- the scan of the page finds one file with one token -/
theorem scan_page : ∃ report log, report.classes = ["B"] ∧ ((Scanner.create .default .builtin (.adding [])).scan
    inOrder pageHost.files .here).1 = .ok (⟨".", [report]⟩, log) := by
  set s : Scanner := .create .default .builtin (.adding []) with hs
  have hregistry : s.registry = .builtin := by rw [hs, Scanner.create_registry, ite_self]
  have hsuffix : Text.lower (⟨"", ["index.html"]⟩ : Path).suffix = ".html" := by
    have hlast : (⟨"", ["index.html"]⟩ : Path).suffix = ".html" := by decide
    rw [hlast, Text.lower_of_small (by decide)]
  have hpaths : s.discover (.dir [("index.html", .file pageBytes)]) .here = .ok [⟨"", ["index.html"]⟩] := by
    rw [Scanner.discover_dir _ (show _ = Except.ok (Tree.dir [("index.html", .file pageBytes)]) from rfl), hregistry]
    simp [Tree.wantedBelow, Tree.fileNames, Tree.wantedBelowEach, sortByName, Registry.isSupported_html hsuffix,
      Tree.isDir, Path.append, Path.here]
  obtain ⟨log, hscan⟩ := s.scan_inOrder (o := inOrder) rfl rfl hpaths
  have htext : (Tree.dir [("index.html", .file pageBytes)]).readText ⟨"", ["index.html"]⟩ =
      .ok (Text.unifyLineEnds "<p class='B'>".toList) := Scanner.readText_encode rfl
  have hwork := s.fileWork_tokens (by rw [hregistry, Registry.sourceFor?_html hsuffix]) htext
    (show Source.html.extract _ = .tokens ["B"] from congrArg Extraction.tokens (by decide +kernel))
  refine ⟨_, log, ?_, hscan⟩
  rw [Scanner.reportOn, hwork]
  exact (by decide : Extract.unique ["B"] = ["B"])

theorem check_page :
    let s := plainSession pageHost
    let a := jsonArguments "."
    s.commandNaming (a.has "strict") (a.has "allow_unknown") = (.ok .default, s) ∧ s.workers = (.ok inOrder, s) ∧
      inOrder.stopped = false ∧ inOrder.isEnabled = false ∧ pageHost.files.Distinct ∧ pageHost.files.Slashless ∧
      pageHost.files.has (rootOf a) = true ∧
      ∃ result log, ((scannerOf .default s).scan inOrder pageHost.files (rootOf a)).1 = .ok (result, log) ∧
        Agreeing result ∧
        (check pageHost false s a).code =
          .ok (if ((scanReport result).data.itemsOf "_groups").isEmpty then 0 else 1) ∧
        ∃ text, (check pageHost false s a).printed = [text] ∧ Json.readChars text.toList = .ok result.value := by
  intro s a
  have hrules : s.commandNaming (a.has "strict") (a.has "allow_unknown") = (.ok .default, s) := rfl
  have hworkers : s.workers = (.ok inOrder, s) := rfl
  have hfiles : pageHost.files.Distinct := .dir (by decide) (List.forall_mem_singleton.2 (.file _))
  have hnames : pageHost.files.Slashless :=
    .dir (List.forall_mem_singleton.2 (by decide)) (List.forall_mem_singleton.2 (.file _))
  have hroot : pageHost.files.has (rootOf a) = true := by decide +kernel
  obtain ⟨result, log, hscan, hagree, hcode, hjson⟩ :=
    check_agrees false hrules hworkers rfl rfl hfiles hnames hroot
  obtain ⟨hprinted, hread⟩ := hjson rfl
  obtain ⟨report, log', hclasses, hscan'⟩ := scan_page
  have hhere : rootOf a = .here := by decide +kernel
  rw [← hhere] at hscan'
  have hresult : result = ⟨".", [report]⟩ := by
    have hsame : Except.ok (result, log) = Except.ok (⟨".", [report]⟩, log') := hscan.symm.trans hscan'
    exact congrArg Prod.fst (Except.ok.inj hsame)
  have hcountable : result.Countable := by
    have htotal : result.totalClasses = 1 := by simp [hresult, ScanResult.totalClasses, hclasses]
    have hone : result.files.length = 1 := by simp [hresult]
    exact ⟨by rw [hone]; decide +kernel, by rw [htotal]; decide +kernel⟩
  exact ⟨hrules, hworkers, rfl, rfl, hfiles, hnames, hroot, result, log, hscan, hagree,
    hcode "json" (by decide) rfl, hread (writes_utf8 _) hcountable⟩

/-- an empty directory whose name has a character that the console does not have -/
def accentHost : Host := hostOf (.dir [("é", .dir [])]) "ascii" .ascii

/-- the result of scanning an empty directory -/
def emptyScan (root : String) : ScanResult := ⟨root, []⟩

/-- a console of plain ASCII is written a question mark in the place of an accented letter -/
theorem safeText_emptyScan : Encoding.ascii.safeText (Json.pretty (emptyScan "é").value).toList =
    (Json.pretty (emptyScan "?").value).toList := by
  change Encoding.ascii.safeText (Json.valueChars 0 _) = Json.valueChars 0 _
  simp only [emptyScan, ScanResult.value, Value.object, List.map_cons, List.map_nil, Json.valueChars_map_cons,
    Json.memberChars, Json.keyText, Json.stringText_toList, Json.tailChars, Json.breakChars, List.flatMap_cons,
    List.flatMap_nil]
  decide +kernel

/-- so what is printed there is read as another result than the one of the scan -/
theorem check_ascii :
    let s := plainSession accentHost
    let a := jsonArguments "é"
    (∃ log, ((scannerOf .default s).scan inOrder accentHost.files (rootOf a)).1 = .ok (emptyScan "é", log)) ∧
      ∃ text, (check accentHost false s a).printed = [text] ∧ Json.readChars text.toList ≠ .ok (emptyScan "é").value := by
  intro s a
  have hroot : rootOf a = ⟨"", ["é"]⟩ := by decide +kernel
  have hfind : accentHost.files.find (rootOf a) = .ok (.dir []) := by
    rw [hroot]
    rfl
  have hpaths : (scannerOf .default s).discover accentHost.files (rootOf a) = .ok [] := by
    rw [Scanner.discover_dir _ hfind]
    simp [Tree.wantedBelow, Tree.fileNames, Tree.wantedBelowEach, sortByName]
  have htext : (rootOf a).text = "é" := by
    rw [hroot]
    decide
  obtain ⟨log, hscan⟩ : ∃ log, ((scannerOf .default s).scan inOrder accentHost.files (rootOf a)).1 =
      .ok (emptyScan "é", log) := by
    rw [emptyScan, ← htext]
    exact (scannerOf .default s).scan_inOrder (o := inOrder) rfl rfl hpaths
  have hreported : ∀ root, Reported (emptyScan root).Countable (emptyScan root).value :=
    fun root => ScanResult.reported_value (by simp [emptyScan])
  refine ⟨⟨log, hscan⟩, _, printed_json false rfl rfl hscan (hreported _).shown rfl, ?_⟩
  have hread : Json.readChars (String.ofList (Encoding.ascii.safeText (Json.pretty (emptyScan "é").value).toList) ++
      "\n").toList = .ok (emptyScan "?").value := by
    rw [safeText_emptyScan]
    exact readChars_line ((hreported "?").plain ⟨by decide +kernel, by decide +kernel⟩)
  change Json.readChars (String.ofList (Encoding.ascii.safeText _) ++ "\n").toList ≠ _
  rw [hread]
  intro hsame
  exact absurd (Except.ok.inj hsame) (by decide +kernel)

end Cli

end ClassNaming
