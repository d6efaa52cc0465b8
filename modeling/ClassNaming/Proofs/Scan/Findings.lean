/-
What is reported on a file, against the verdicts on its class strings.

The report on a file lists its distinct tokens and, of these, the ones that break the rules. Checking the class strings
of the file one by one goes the other way: it lists every token that breaks the rules, and repetitions are dropped last.

- `refuses_iff`, `judge_of_refuses`: which tokens break the rules, and what is said of them.
- `findings_eq`, `invalidClasses_eq`: the findings of a scan and the failures of a class string are the same tokens with
  the same messages.
- `unique_filter`: dropping repetitions and choosing tokens can be done in any order.
- `report_of_page`: the report on an HTML page is what its class strings come to, one after the other.
-/
import ClassNaming.Proofs.Extract.Pages
import ClassNaming.Proofs.Source.Builtin
import ClassNaming.Scan.Scanner

namespace ClassNaming

/-! ## Tokens that break the rules -/

/-- the token breaks the rules -/
def Rules.refuses (rules : Rules) (token : String) : Bool := !(judge rules token).valid

theorem Rules.refuses_iff (rules : Rules) (token : String) :
    rules.refuses token = true ↔ classify rules token = none ∧ rules.allowUnknown = false := by
  unfold refuses judge
  cases classify rules token with
  | some kind => simp
  | none => cases rules.allowUnknown <;> simp

theorem Rules.judge_of_refuses {rules : Rules} {token : String} (h : rules.refuses token = true) :
    judge rules token = ⟨false, none, some (explain token)⟩ := by
  obtain ⟨hnone, hknown⟩ := (rules.refuses_iff token).1 h
  rw [judge, hnone, hknown]
  rfl

theorem explain_isEmpty (token : String) : (explain token).isEmpty = false := by
  unfold explain failureMessage
  split_ifs <;> simp

/-- a finding about a token of a file -/
def Finding.about (path token : String) : Finding := ⟨path, token, explain token⟩

theorem Finding.tokens_about (path : String) (tokens : List String) :
    (tokens.map (about path)).map (·.token) = tokens := by
  rw [List.map_map]
  exact List.map_id tokens

theorem Finding.filter_about (path : String) (p : String → Bool) (tokens : List String) :
    (tokens.map (about path)).filter (fun f => p f.token) = (tokens.filter p).map (about path) := by
  rw [List.filter_map]
  rfl

theorem Scanner.findings_eq (s : Scanner) (path : String) (tokens : List String) :
    s.findings path tokens = (tokens.filter s.rules.refuses).map (Finding.about path) := by
  induction tokens with
  | nil => rfl
  | cons token tokens ih =>
    rw [findings] at ih ⊢
    cases hrefused : s.rules.refuses token with
    | true =>
      rw [List.filter_cons_of_pos hrefused, List.map_cons, ← ih, List.filterMap_cons]
      simp only [Rules.judge_of_refuses hrefused, explain_isEmpty]
      rfl
    | false =>
      have hvalid : (judge s.rules token).valid = true := by simpa [Rules.refuses] using hrefused
      rw [List.filter_cons_of_neg (by simp [hrefused]), ← ih, List.filterMap_cons]
      simp only [hvalid, if_true]

theorem invalidClasses_eq (rules : Rules) (s : String) : invalidClasses rules s =
    ((Extract.classString s).filter rules.refuses).map fun token => ⟨token, judge rules token⟩ := by
  have hrefused : ((fun j : Judged => !j.verdict.valid) ∘ fun token => ⟨token, judge rules token⟩) = rules.refuses := by
    funext token
    rw [Function.comp_apply, Rules.refuses]
  rw [invalidClasses, judgeAll, List.filter_map, hrefused]

/-! ## Distinct tokens -/

theorem Extract.unique_filter (p : String → Bool) (tokens : List String) :
    unique (tokens.filter p) = (unique tokens).filter p := by
  induction tokens with
  | nil => rfl
  | cons token tokens ih =>
    cases hp : p token with
    | true =>
      rw [List.filter_cons_of_pos hp, unique, unique, List.filter_cons_of_pos hp, ih, List.filter_filter,
        List.filter_filter]
      simp only [Bool.and_comm]
    | false =>
      -- the tokens that are dropped as repetitions are not chosen anyway
      have hdropped : ∀ other ∈ unique tokens, (p other && other != token) = p other := by
        intro other _
        by_cases h : other = token
        · rw [h, hp]
          rfl
        · simp [h]
      rw [List.filter_cons_of_neg (by simp [hp]), ih, unique, List.filter_cons_of_neg (by simp [hp]),
        List.filter_filter, List.filter_congr hdropped]

/-- the distinct tokens among all failures of some class strings, in the order in which they come -/
theorem unique_invalidClasses (rules : Rules) (values : List String) :
    Extract.unique ((values.flatMap (invalidClasses rules)).map (·.token)) =
      (Extract.unique (values.flatMap Extract.classString)).filter rules.refuses := by
  have hvalue : ∀ value, (invalidClasses rules value).map (·.token) =
      (Extract.classString value).filter rules.refuses := by
    intro value
    rw [invalidClasses_eq, List.map_map]
    exact List.map_id _
  rw [List.map_flatMap, ← Extract.unique_filter, List.filter_flatMap]
  simp only [hvalue]

/-! ## Reports -/

namespace Scanner

theorem create_registry (rules : Rules) (registry : Registry) (exclusion : Exclusion) :
    (create rules registry exclusion).registry = if registry.sources.isEmpty then .builtin else registry := rfl

variable (s : Scanner) {files : Tree} {p : Path}

/-- the report on a file that can be read, by a source whose extractor answers -/
theorem fileWork_tokens {source : Source} {text : List Char} {tokens : List String}
    (hsource : s.registry.sourceFor? p = some source) (htext : files.readText p = .ok text)
    (htokens : source.extract (String.ofList text) = .tokens tokens) :
    (s.fileWork files p).1 = { outcome := .ok {
      path := p.text
      source := source.category
      classes := Extract.unique tokens
      findings := s.findings p.text (Extract.unique tokens) } } := by
  simp only [fileWork, hsource, htext, reportText, htokens]

theorem readText_encode {text : List Char} (h : files.find p = .ok (.file (Utf8.encode text))) :
    files.readText p = .ok (Text.unifyLineEnds text) := by
  have hbytes : files.readBytes p = .ok (Utf8.encode text) := by
    rw [Tree.readBytes, h]
  rw [Tree.readText, hbytes]
  simp only [bind, Except.bind, Utf8.decode_encode]
  rfl

end Scanner

/-- **The report on a page is what its class strings come to.** Whatever the rules are, a page of any texts without
`class=` and any quoted `class=` attributes without quotes inside is read without an error. Its classes are the distinct
tokens of the values, in the order of the page. Its findings are the distinct tokens that fail when the values are
checked one by one, in the same order, and with the same messages. -/
theorem report_of_page (rules : Rules) (exclusion : Exclusion) (page : Extract.Page) {files : Tree} {p : Path}
    (hsuffix : Text.lower p.suffix = ".html") (hfile : files.find p = .ok (.file (Utf8.encode page.text))) :
    ∃ report : FileReport,
      ((Scanner.create rules .builtin exclusion).fileWork files p).1 = { outcome := .ok report } ∧
      report.path = p.text ∧ report.source = "html" ∧ report.error = none ∧
      report.classes = Extract.unique (page.values.flatMap Extract.classString) ∧
      report.findings.map (·.token) = Extract.unique ((page.values.flatMap (invalidClasses rules)).map (·.token)) ∧
      ∀ f ∈ report.findings, f.file = p.text ∧
        ∀ j ∈ page.values.flatMap (invalidClasses rules), j.token = f.token → j.verdict.message = some f.message := by
  set s := Scanner.create rules .builtin exclusion with hs
  have hrules : s.rules = rules := rfl
  have hsource : s.registry.sourceFor? p = some .html := by
    rw [hs, Scanner.create_registry, ite_self, Registry.sourceFor?_html hsuffix]
  have htokens : Source.html.extract (String.ofList (Text.unifyLineEnds page.text)) =
      .tokens (page.values.flatMap Extract.classString) := congrArg _ page.html_read
  refine ⟨_, s.fileWork_tokens hsource (Scanner.readText_encode hfile) htokens, rfl, rfl, rfl, rfl, ?_, ?_⟩
  · rw [unique_invalidClasses, s.findings_eq, hrules, Finding.tokens_about]
  · intro f hf
    rw [s.findings_eq] at hf
    obtain ⟨token, -, rfl⟩ := List.mem_map.1 hf
    refine ⟨rfl, ?_⟩
    intro j hj hsame
    obtain ⟨value, -, hvalue⟩ := List.mem_flatMap.1 hj
    rw [invalidClasses_eq] at hvalue
    obtain ⟨failing, hfailing, rfl⟩ := List.mem_map.1 hvalue
    have hmessage := congrArg Verdict.message (Rules.judge_of_refuses (List.mem_filter.1 hfailing).2)
    exact hmessage.trans (congrArg (fun t => some (explain t)) hsame)

/-- a page with both quotes, a line end inside a value, an empty value, and tokens that come again -/
def repeatingPage : Extract.Page where
  lead := ⟨['<', 'p', ' '], by decide⟩
  attributes :=
    [{ opening := ⟨'"', rfl⟩
       value := ⟨['a', ' ', 'B', '\r', '\n', 'a'], by simp [Extract.isQuote]⟩
       closing := ⟨'"', rfl⟩
       after := ⟨['>', '<', 'b', ' '], by decide⟩ },
     { opening := ⟨'\'', rfl⟩
       value := ⟨[], by simp⟩
       closing := ⟨'\'', rfl⟩
       after := ⟨['>', '<', 'i', ' '], by decide⟩ },
     { opening := ⟨'\'', rfl⟩
       value := ⟨['B'], by simp [Extract.isQuote]⟩
       closing := ⟨'\'', rfl⟩
       after := ⟨['>'], by decide⟩ }]

/-- tokens that come several times on a page are reported once -/
theorem report_of_repeatingPage :
    let files : Tree := .dir [("index.html", .file (Utf8.encode repeatingPage.text))]
    let p : Path := ⟨"", ["index.html"]⟩
    Text.lower p.suffix = ".html" ∧ files.find p = .ok (.file (Utf8.encode repeatingPage.text)) ∧
      ∃ report : FileReport,
        ((Scanner.create .default .builtin (.adding [])).fileWork files p).1 = { outcome := .ok report } ∧
        report.classes = ["a", "B"] ∧
        report.findings.map (·.token) =
          Extract.unique ((["a B\r\na", "", "B"].flatMap (invalidClasses .default)).map (·.token)) := by
  intro files p
  have hsuffix : Text.lower p.suffix = ".html" := by
    have hp : p.suffix = ".html" := by decide
    rw [hp, Text.lower_of_small (by decide)]
  have hfile : files.find p = .ok (.file (Utf8.encode repeatingPage.text)) := rfl
  have hvalues : repeatingPage.values = ["a B\r\na", "", "B"] := by decide
  obtain ⟨report, hreport, -, -, -, hclasses, hfindings, -⟩ :=
    report_of_page .default (.adding []) repeatingPage hsuffix hfile
  rw [hvalues] at hclasses hfindings
  have hunique : Extract.unique (["a B\r\na", "", "B"].flatMap Extract.classString) = ["a", "B"] := by
    decide
  exact ⟨hsuffix, hfile, report, hreport, hclasses.trans hunique, hfindings⟩

end ClassNaming
