import Mathlib.Algebra.GroupWithZero.Nat
import Mathlib.Data.List.Sort
import Mathlib.Data.String.Basic
import CfIntegration.Foundation.Markdown
import CfIntegration.Conformance.Outcome

/-! # The comparison report

The Markdown report that sets the outcomes of the three targets side by side. Its texts
come from untrusted results, so they are escaped before they become part of a line or
of a table cell.
-/

namespace CfIntegration.Conformance

open CfIntegration.Markdown

def ScenarioOutcome.label : ScenarioOutcome → String
  | .compliant => "compliant"
  | .nonCompliant => "failure"
  | .fixtureFailure => "fixture failure"
  | .notApplicable => "not applicable"
  | .ambiguous => "ambiguous"
  | .missing => "missing"

inductive ComparisonClassification where
  | allCompliant
  | fixtureOnlyFailure
  | builtInDataPlaneOnlyFailure
  | externalDataPlaneOnlyFailure
  | fixtureAndBuiltInDataPlaneFailure
  | fixtureAndExternalDataPlaneFailure
  | gatewaysOnlyFailure
  | sharedFailure
  | fixtureFailure
  | notApplicable
  | ambiguous
  deriving DecidableEq, Repr

namespace ComparisonClassification

def all : List ComparisonClassification :=
  [.allCompliant, .fixtureOnlyFailure, .builtInDataPlaneOnlyFailure,
    .externalDataPlaneOnlyFailure, .fixtureAndBuiltInDataPlaneFailure,
    .fixtureAndExternalDataPlaneFailure, .gatewaysOnlyFailure, .sharedFailure, .fixtureFailure,
    .notApplicable, .ambiguous]

def label : ComparisonClassification → String
  | .allCompliant => "all compliant"
  | .fixtureOnlyFailure => "fixture-only failure"
  | .builtInDataPlaneOnlyFailure => "built-in dataplane only failure"
  | .externalDataPlaneOnlyFailure => "external dataplane only failure"
  | .fixtureAndBuiltInDataPlaneFailure => "fixture + built-in dataplane failure"
  | .fixtureAndExternalDataPlaneFailure => "fixture + external dataplane failure"
  | .gatewaysOnlyFailure => "both gateways only failure"
  | .sharedFailure => "shared failure"
  | .fixtureFailure => "fixture failure"
  | .notApplicable => "not applicable"
  | .ambiguous => "ambiguous"

end ComparisonClassification

structure ScenarioComparison where
  scenario : String
  fixture : ScenarioOutcome
  fixtureFailedChecks : Nat
  builtInDataPlane : ScenarioOutcome
  builtInDataPlaneFailedChecks : Nat
  externalDataPlane : ScenarioOutcome
  externalDataPlaneFailedChecks : Nat
  classification : ComparisonClassification
  specReferences : List SpecReference
  deriving DecidableEq

structure ComparisonReport where
  clientVersion : String
  serverEra : ConformanceServerEra
  suite : String
  fixture : ConformanceFixtureMetadata
  /-- In any order; rendering sorts them. -/
  scenarios : List ScenarioComparison

/-- `str::replace` of one character. -/
def replaceChar (char : Char) (replacement text : List Char) : List Char :=
  text.flatMap fun other => if other = char then replacement else [other]

def markdownCell (value : List Char) : List Char :=
  replaceChar '>' "&gt;".toList (replaceChar '<' "&lt;".toList
    (replaceChar '\n' "<br>".toList (replaceChar '\r' [] (replaceChar '|' "\\|".toList
      (replaceChar '\\' "\\\\".toList value)))))

def markdownCode (value : List Char) : List Char :=
  (replaceChar '\x60' "\\`".toList value).map fun char =>
    if char = '\r' ∨ char = '\n' then ' ' else char

def isAsciiControl (char : Char) : Bool := char.val < 0x20 || char.val = 0x7f

def isSafeMarkdownUrl (url : List Char) : Bool :=
  ("https://".toList.isPrefixOf url || "http://".toList.isPrefixOf url) &&
    !url.any fun char => isAsciiControl char || char ∈ ['<', '>', '(', ')', '|']

def renderReference (reference : SpecReference) : List Char :=
  let id := markdownCell reference.id.toList
  match reference.url with
  | some url =>
    if isSafeMarkdownUrl url.toList then ['['] ++ id ++ [']', '('] ++ url.toList ++ [')']
    else id ++ " (unsafe URL omitted)".toList
  | none => id

/-- Count the items by key, each key from zero on. -/
def countBy {α κ : Type} [DecidableEq κ] (key : α → κ) (items : List α) : κ → Nat :=
  items.foldl (fun counts item => Function.update counts (key item) (counts (key item) + 1))
    fun _ => 0

structure Target where
  label : String
  outcome : ScenarioComparison → ScenarioOutcome
  failedChecks : ScenarioComparison → Nat

def targetOutcomes : List Target :=
  [⟨"Fixture direct", (·.fixture), (·.fixtureFailedChecks)⟩,
    ⟨"Built-in data-plane route", (·.builtInDataPlane), (·.builtInDataPlaneFailedChecks)⟩,
    ⟨"External data-plane route", (·.externalDataPlane), (·.externalDataPlaneFailedChecks)⟩]

/-- What the report says of one target. -/
structure TargetSummary where
  label : String
  compliant : Nat
  nonCompliant : Nat
  failedChecks : Nat
  fixtureFailure : Nat
  notApplicable : Nat
  ambiguous : Nat
  missing : Nat

/-- The scenarios that the outcome columns account for. -/
def TargetSummary.scenarios (summary : TargetSummary) : Nat :=
  summary.compliant + summary.nonCompliant + summary.fixtureFailure + summary.notApplicable +
    summary.ambiguous + summary.missing

def TargetSummary.row (summary : TargetSummary) : List Char :=
  tableRow (summary.label.toList ::
    [summary.compliant, summary.nonCompliant, summary.failedChecks, summary.fixtureFailure,
      summary.notApplicable, summary.ambiguous, summary.missing].map (Nat.toDigits 10))

namespace ComparisonReport

def targetSummary (report : ComparisonReport) (target : Target) : TargetSummary :=
  let counts := countBy target.outcome report.scenarios
  { label := target.label
    compliant := counts .compliant
    nonCompliant := counts .nonCompliant
    failedChecks := (report.scenarios.map target.failedChecks).sum
    fixtureFailure := counts .fixtureFailure
    notApplicable := counts .notApplicable
    ambiguous := counts .ambiguous
    missing := counts .missing }

def targetSummaries (report : ComparisonReport) : List TargetSummary :=
  targetOutcomes.map report.targetSummary

def classificationCounts (report : ComparisonReport) : List (ComparisonClassification × Nat) :=
  ComparisonClassification.all.map fun classification =>
    (classification, countBy (·.classification) report.scenarios classification)

def sortedScenarios (report : ComparisonReport) : List ScenarioComparison :=
  report.scenarios.insertionSort fun left right => left.scenario ≤ right.scenario

end ComparisonReport

def classificationRow (count : ComparisonClassification × Nat) : List Char :=
  tableRow [count.1.label.toList, Nat.toDigits 10 count.2]

def renderReferences (references : List SpecReference) : List Char :=
  if references.isEmpty then "—".toList
  else "<br>".toList.intercalate (references.map renderReference)

def scenarioParts (scenario : ScenarioComparison) : List (List Char) :=
  [markdownCell scenario.scenario.toList, scenario.fixture.label.toList,
    scenario.builtInDataPlane.label.toList, scenario.externalDataPlane.label.toList,
    scenario.classification.label.toList, renderReferences scenario.specReferences]

def scenarioRow (scenario : ScenarioComparison) : List Char :=
  tableRow (scenarioParts scenario)

def titleLines (report : ComparisonReport) : List (List Char) :=
  ["# MCP Conformance Comparison".toList,
    [],
    "- Official oracle: `".toList ++ officialConformancePackage.toList ++ "`".toList,
    "- Client specification: `".toList ++ markdownCode report.clientVersion.toList ++
      "`".toList,
    "- Upstream server era: `".toList ++ report.serverEra.label.toList ++ "`".toList,
    "- Suite: `".toList ++ markdownCode report.suite.toList ++ "`".toList,
    "- Fixture source: `".toList ++ markdownCode report.fixture.repository.toList ++
      "` at `".toList ++ markdownCode report.fixture.revision.toList ++ "`".toList,
    []]

def targetHeading : List (List Char) :=
  ["## Target outcomes".toList,
    [],
    ("| Target | Compliant scenarios | Failed scenarios | Failed checks | Fixture failures " ++
      "| Not applicable | Ambiguous | Missing |").toList,
    "|---|---:|---:|---:|---:|---:|---:|---:|".toList]

def summaryHeading : List (List Char) :=
  [[],
    "## Comparison summary".toList,
    [],
    "| Classification | Scenarios |".toList,
    "|---|---:|".toList]

def scenarioHeader : List Char :=
  ("| Scenario | Fixture direct | Built-in data-plane route | External data-plane route " ++
    "| Classification | Specification references |").toList

def scenarioRule : List Char := "|---|---|---|---|---|---|".toList

/-- Everything in front of the table of scenarios. -/
def summaryLines (report : ComparisonReport) : List (List Char) :=
  titleLines report ++
    targetHeading ++ report.targetSummaries.map TargetSummary.row ++
    summaryHeading ++ report.classificationCounts.map classificationRow ++
    [[], "## Scenarios".toList, []]

def reportLines (report : ComparisonReport) : List (List Char) :=
  summaryLines report ++ scenarioHeader :: scenarioRule ::
    report.sortedScenarios.map scenarioRow

/-- The report in Markdown; its texts may be untrusted. -/
def renderComparisonMarkdown (report : ComparisonReport) : String :=
  String.ofList (unlines (reportLines report))

/-- What a cell shows for one character of its text. The break put in for a line feed
is escaped in turn. -/
def cellChar (char : Char) : List Char :=
  if char = '\\' then "\\\\".toList
  else if char = '|' then "\\|".toList
  else if char = '\r' then []
  else if char = '\n' then "&lt;br&gt;".toList
  else if char = '<' then "&lt;".toList
  else if char = '>' then "&gt;".toList
  else [char]

/-- A cell is escaped character by character. -/
theorem markdownCell_eq (value : List Char) : markdownCell value = value.flatMap cellChar := by
  simp only [markdownCell, replaceChar, List.flatMap_assoc]
  apply congrArg (value.flatMap ·)
  funext char
  unfold cellChar
  split_ifs with hbackslash hpipe hreturn hfeed hless hgreater
  any_goals subst_vars; rfl
  simp [hpipe, hreturn, hfeed, hless, hgreater]

example : markdownCell "a|b\n<c>\r".toList = "a\\|b&lt;br&gt;&lt;c&gt;".toList := by
  decide +kernel

/-- The escape of a character has no line break. -/
theorem oneLine_cellChar (char : Char) : OneLine (cellChar char) := by
  unfold cellChar
  split_ifs with hbackslash hpipe hreturn hfeed hless hgreater
  · exact .of_all rfl
  · exact .of_all rfl
  · exact .of_all rfl
  · exact .of_all rfl
  · exact .of_all rfl
  · exact .of_all rfl
  · intro shown hshown
    rw [List.mem_singleton.mp hshown]
    simp [isLineEnd, hreturn, hfeed]

/-- The escape of a character leaves no separator of cells. -/
theorem plain_cellChar (char : Char) : Plain (cellChar char) := by
  unfold cellChar
  split_ifs with hbackslash hpipe
  · exact plain_escaped _
  · exact plain_escaped _
  · exact plain_nil
  · exact plain_of_forall (by simp)
  · exact plain_of_forall (by simp)
  · exact plain_of_forall (by simp)
  · exact plain_singleton hbackslash hpipe

theorem plain_markdownCell (value : List Char) : Plain (markdownCell value) := by
  rw [markdownCell_eq]
  exact plain_flatMap fun char _ => plain_cellChar char

/-- A cell stays on one line, whatever its text is. -/
theorem oneLine_markdownCell (value : List Char) : OneLine (markdownCell value) := by
  intro char hchar
  rw [markdownCell_eq] at hchar
  obtain ⟨source, -, hshown⟩ := List.mem_flatMap.mp hchar
  exact oneLine_cellChar source char hshown

theorem oneLine_markdownCode (value : List Char) : OneLine (markdownCode value) := by
  intro char hchar
  obtain ⟨source, -, rfl⟩ := List.mem_map.mp hchar
  split_ifs with hend
  · rfl
  · simpa [isLineEnd, and_comm] using hend

/-- An accepted URL has none of the characters that would end its line or its cell. -/
theorem not_mem_of_isSafeMarkdownUrl {url : List Char} (hurl : isSafeMarkdownUrl url = true)
    {char : Char} (hchar : char ∈ url) :
    isAsciiControl char = false ∧ char ∉ ['<', '>', '(', ')', '|'] := by
  simp only [isSafeMarkdownUrl, Bool.and_eq_true, Bool.not_eq_true', List.any_eq_false] at hurl
  simpa using hurl.2 char hchar

/-- A text that stays within its line and its cell. -/
structure FitsCell (text : List Char) : Prop where
  plain : Plain text
  oneLine : OneLine text

theorem FitsCell.of_all {text : List Char}
    (htext : text.all (fun char => !isLineEnd char && char != '\\' && char != '|') = true) :
    FitsCell text := by
  simp only [List.all_eq_true, Bool.and_eq_true, bne_iff_ne, Bool.not_eq_true'] at htext
  constructor
  · exact plain_of_forall fun char hchar => ⟨(htext char hchar).1.2, (htext char hchar).2⟩
  · exact fun char hchar => (htext char hchar).1.1

/-- Texts that fit into a cell fit in a row. -/
theorem FitsCell.append {front back : List Char} (hfront : FitsCell front)
    (hback : FitsCell back) : FitsCell (front ++ back) :=
  ⟨hfront.plain.append hback.plain, hfront.oneLine.append hback.oneLine⟩

theorem fitsCell_intercalate {separator : List Char} {parts : List (List Char)}
    (hseparator : FitsCell separator) (hparts : ∀ part ∈ parts, FitsCell part) :
    FitsCell (separator.intercalate parts) := by
  induction parts with
  | nil => exact .of_all rfl
  | cons part rest ih =>
      have hpart := hparts part List.mem_cons_self
      have hrest := ih fun other hother => hparts other (List.mem_cons_of_mem _ hother)
      cases rest with
      | nil => simpa using hpart
      | cons next rest =>
          rw [List.intercalate_cons_cons]
          exact (hpart.append hseparator).append hrest

/-- An escaped text fits into a cell. -/
theorem fitsCell_markdownCell (value : List Char) : FitsCell (markdownCell value) :=
  ⟨plain_markdownCell value, oneLine_markdownCell value⟩

/-- A URL with its closing parenthesis, which a backslash at its end would escape. -/
theorem fitsCell_url {url : List Char} (hurl : isSafeMarkdownUrl url = true) :
    FitsCell (url ++ [')']) := by
  have hsafe := @not_mem_of_isSafeMarkdownUrl url hurl
  constructor
  · exact plain_concat (fun hpipe => (hsafe hpipe).2 (by decide)) (by decide) (by decide)
  · apply OneLine.append
    · intro char hin
      have hcontrol := (hsafe hin).1
      simp only [isLineEnd, Bool.or_eq_false_iff, decide_eq_false_iff_not]
      constructor <;> rintro rfl <;> cases hcontrol
    · exact .of_all rfl

theorem fitsCell_renderReference (reference : SpecReference) :
    FitsCell (renderReference reference) := by
  have hid := fitsCell_markdownCell reference.id.toList
  unfold renderReference
  split
  next url hurl =>
    split
    next hsafe =>
      have hopen : FitsCell ['['] := .of_all (by decide)
      have hmiddle : FitsCell [']', '('] := .of_all (by decide)
      rw [List.append_assoc]
      exact ((hopen.append hid).append hmiddle).append (fitsCell_url hsafe)
    next =>
      apply hid.append
      exact .of_all (by decide)
  next => exact hid

/-- References with links fit into a cell. -/
theorem fitsCell_renderReferences (references : List SpecReference) :
    FitsCell (renderReferences references) := by
  unfold renderReferences
  split
  · exact .of_all (by decide)
  · apply fitsCell_intercalate (.of_all (by decide))
    intro part hpart
    obtain ⟨reference, -, rfl⟩ := List.mem_map.mp hpart
    exact fitsCell_renderReference reference

theorem fitsCell_outcome (outcome : ScenarioOutcome) : FitsCell outcome.label.toList := by
  cases outcome <;> exact .of_all (by decide)

theorem fitsCell_classification (classification : ComparisonClassification) :
    FitsCell classification.label.toList := by
  cases classification <;> exact .of_all (by decide)

theorem fitsCell_digits (count : Nat) : FitsCell (Nat.toDigits 10 count) := by
  apply FitsCell.of_all
  rw [List.all_eq_true]
  intro char hchar
  have hdigit : char.isDigit = true := Nat.isDigit_of_mem_toDigits (by decide) (by decide) hchar
  simp only [isLineEnd, Bool.and_eq_true, bne_iff_ne, Bool.not_eq_true', Bool.or_eq_false_iff,
    decide_eq_false_iff_not]
  refine ⟨⟨⟨?_, ?_⟩, ?_⟩, ?_⟩ <;> rintro rfl <;> cases hdigit

/-- A row of texts that fit their cells is one line with one cell for each of them,
between the empty texts outside the outer pipes. -/
theorem tableRow_fits {parts : List (List Char)} (hparts : ∀ part ∈ parts, FitsCell part) :
    (cells (tableRow parts)).length = parts.length + 2 ∧ OneLine (tableRow parts) := by
  constructor
  · exact length_cells_tableRow fun part hpart => (hparts part hpart).plain
  · exact oneLine_tableRow fun part hpart => (hparts part hpart).oneLine

/-- Every part of a scenario's row fits into a cell. -/
theorem fitsCell_scenarioParts (scenario : ScenarioComparison) :
    ∀ part ∈ scenarioParts scenario, FitsCell part := by
  simp [scenarioParts, fitsCell_markdownCell, fitsCell_outcome, fitsCell_classification,
    fitsCell_renderReferences]

/-- The row of a scenario has eight cells on one line. -/
theorem scenarioRow_fits (scenario : ScenarioComparison) :
    (cells (scenarioRow scenario)).length = 8 ∧ OneLine (scenarioRow scenario) :=
  tableRow_fits (fitsCell_scenarioParts scenario)

/-- The row of a classification has four cells on one line. -/
theorem classificationRow_fits (count : ComparisonClassification × Nat) :
    (cells (classificationRow count)).length = 4 ∧ OneLine (classificationRow count) := by
  apply tableRow_fits
  simp [fitsCell_classification, fitsCell_digits]

/-- The row of a target has ten cells on one line. -/
theorem targetRow_fits {report : ComparisonReport} {summary : TargetSummary}
    (hsummary : summary ∈ report.targetSummaries) :
    (cells summary.row).length = 10 ∧ OneLine summary.row := by
  have hlabels : ∀ target ∈ targetOutcomes, FitsCell target.label.toList := by
    simp only [targetOutcomes, List.forall_mem_cons]
    exact ⟨.of_all (by decide), .of_all (by decide), .of_all (by decide), by simp⟩
  obtain ⟨target, htarget, rfl⟩ := List.mem_map.mp hsummary
  apply tableRow_fits
  simp [ComparisonReport.targetSummary, hlabels target htarget, fitsCell_digits]

theorem oneLine_titleLines (report : ComparisonReport) :
    ∀ line ∈ titleLines report, OneLine line := by
  have hera : OneLine report.serverEra.label.toList := by
    cases report.serverEra <;> exact .of_all (by decide)
  have htick : OneLine "`".toList := .of_all (by decide)
  have hcode := oneLine_markdownCode
  simp only [titleLines, List.forall_mem_cons]
  refine ⟨.of_all (by decide), .of_all rfl, .of_all (by decide), ?_, ?_, ?_, ?_, .of_all rfl, ?_⟩
  · exact (OneLine.append (.of_all (by decide)) (hcode _)).append htick
  · exact (OneLine.append (.of_all (by decide)) hera).append htick
  · exact (OneLine.append (.of_all (by decide)) (hcode _)).append htick
  · have hat : OneLine "` at `".toList := .of_all (by decide)
    exact (((OneLine.append (.of_all (by decide)) (hcode _)).append hat).append
      (hcode _)).append htick
  · simp

theorem oneLine_targetHeading : ∀ line ∈ targetHeading, OneLine line := by
  simp only [targetHeading, List.forall_mem_cons]
  exact ⟨.of_all rfl, .of_all rfl, .of_all (by decide +kernel), .of_all (by decide +kernel),
    by simp⟩

theorem oneLine_summaryHeading : ∀ line ∈ summaryHeading, OneLine line := by
  simp only [summaryHeading, List.forall_mem_cons]
  exact ⟨.of_all rfl, .of_all rfl, .of_all rfl, .of_all rfl, .of_all rfl, by simp⟩

/-- Every line of the report is one physical line, whatever texts it shows. -/
theorem physicalLines_renderComparisonMarkdown (report : ComparisonReport) :
    physicalLines (renderComparisonMarkdown report).toList = reportLines report ++ [[]] := by
  rw [renderComparisonMarkdown, String.toList_ofList]
  apply physicalLines_unlines
  intro line hline
  simp only [reportLines, summaryLines, List.mem_append, List.mem_cons, List.mem_map] at hline
  obtain (((((htitle | htarget) | ⟨summary, hsummary, rfl⟩) | hheading) | ⟨count, -, rfl⟩) |
    hscenarios) | hheader | hrule | ⟨scenario, -, rfl⟩ := hline
  · exact oneLine_titleLines report line htitle
  · exact oneLine_targetHeading line htarget
  · exact (targetRow_fits hsummary).2
  · exact oneLine_summaryHeading line hheading
  · exact (classificationRow_fits count).2
  · obtain rfl | rfl | rfl | hnone := hscenarios
    · exact .of_all rfl
    · exact .of_all (by decide)
    · exact .of_all rfl
    · cases hnone
  · rw [hheader]
    exact .of_all (by decide +kernel)
  · rw [hrule]
    exact .of_all rfl
  · exact (scenarioRow_fits scenario).2

/-- Counting by a key counts the key among the keys of the items. -/
theorem countBy_eq_count {α κ : Type} [DecidableEq κ] (key : α → κ) (items : List α) (item : κ) :
    countBy key items item = (items.map key).count item := by
  have hrun : ∀ counts : κ → Nat,
      items.foldl (fun counts item =>
        Function.update counts (key item) (counts (key item) + 1)) counts item =
        counts item + (items.map key).count item := by
    induction items with
    | nil => simp
    | cons first rest ih =>
        intro counts
        rw [List.foldl_cons, ih, List.map_cons, List.count_cons, Function.update_apply]
        by_cases heq : item = key first
        · subst heq
          simp only [if_true, beq_self_eq_true]
          omega
        · have hne : (key first == item) = false := by simpa using Ne.symm heq
          simp [heq, hne]
  simpa [countBy] using hrun fun _ => 0

/-- One more item adds the occurrences of its key. -/
theorem sum_count_cons {κ : Type} [DecidableEq κ] (keys items : List κ) (first : κ) :
    (keys.map ((first :: items).count ·)).sum =
      keys.count first + (keys.map (items.count ·)).sum := by
  induction keys with
  | nil => rfl
  | cons key rest ih =>
      rw [List.map_cons, List.map_cons, List.sum_cons, List.sum_cons, ih, List.count_cons,
        List.count_cons]
      by_cases heq : key = first
      · subst heq
        simp only [beq_self_eq_true, if_true]
        omega
      · simp only [beq_iff_eq, heq, Ne.symm heq, if_false]
        omega

/-- Counts under keys without repetition that cover everything add up to the items. -/
theorem sum_countBy {α κ : Type} [DecidableEq κ] {keys : List κ} (hnodup : keys.Nodup)
    (hall : ∀ item, item ∈ keys) (key : α → κ) (items : List α) :
    (keys.map (countBy key items)).sum = items.length := by
  have hcount : countBy key items = fun item => (items.map key).count item := by
    funext item
    exact countBy_eq_count key items item
  rw [hcount, ← List.length_map key]
  induction items.map key with
  | nil => simp
  | cons first rest ih =>
      rw [sum_count_cons, ih, List.count_eq_one_of_mem hnodup (hall first), List.length_cons,
        Nat.add_comm]

/-- Each target is summarised over all scenarios. -/
theorem ComparisonReport.scenarios_of_mem_targetSummaries {report : ComparisonReport}
    {summary : TargetSummary} (hsummary : summary ∈ report.targetSummaries) :
    summary.scenarios = report.scenarios.length := by
  obtain ⟨target, -, rfl⟩ := List.mem_map.mp hsummary
  have hall : ∀ outcome : ScenarioOutcome, outcome ∈
      [.compliant, .nonCompliant, .fixtureFailure, .notApplicable, .ambiguous, .missing] := by
    intro outcome
    cases outcome <;> decide
  rw [← sum_countBy (by decide) hall target.outcome report.scenarios]
  simp [TargetSummary.scenarios, ComparisonReport.targetSummary, Nat.add_assoc]

/-- The counts of the classifications add up to the scenarios. -/
theorem ComparisonReport.sum_classificationCounts (report : ComparisonReport) :
    (report.classificationCounts.map Prod.snd).sum = report.scenarios.length := by
  have hall : ∀ classification, classification ∈ ComparisonClassification.all := by
    intro classification
    cases classification <;> decide
  rw [← sum_countBy (by decide) hall (·.classification) report.scenarios]
  simp [ComparisonReport.classificationCounts, Function.comp_def]

/-- Each scenario has one line of the table, with as many cells as the header, and the
counts of both summaries account for every scenario. -/
theorem renderComparisonMarkdown_wellFormed (report : ComparisonReport) :
    physicalLines (renderComparisonMarkdown report).toList =
        summaryLines report ++ scenarioHeader :: scenarioRule ::
          report.sortedScenarios.map scenarioRow ++ [[]] ∧
      report.sortedScenarios.Perm report.scenarios ∧
      (∀ scenario, (cells (scenarioRow scenario)).length = (cells scenarioHeader).length) ∧
      (∀ summary ∈ report.targetSummaries, summary.row ∈ summaryLines report ∧
        summary.scenarios = report.scenarios.length) ∧
      (∀ count ∈ report.classificationCounts, classificationRow count ∈ summaryLines report) ∧
      (report.classificationCounts.map Prod.snd).sum = report.scenarios.length := by
  have hheader : (cells scenarioHeader).length = 8 := by decide +kernel
  refine ⟨?_, ?_, ?_, ?_, ?_, ?_⟩
  · exact physicalLines_renderComparisonMarkdown report
  · exact List.perm_insertionSort _ _
  · intro scenario
    rw [hheader, (scenarioRow_fits scenario).1]
  · intro summary hsummary
    constructor
    · simp only [summaryLines, List.mem_append]
      exact .inl (.inl (.inl (.inr (List.mem_map_of_mem hsummary))))
    · exact ComparisonReport.scenarios_of_mem_targetSummaries hsummary
  · intro count hcount
    simp only [summaryLines, List.mem_append]
    exact .inl (.inr (List.mem_map_of_mem hcount))
  · exact report.sum_classificationCounts

end CfIntegration.Conformance
