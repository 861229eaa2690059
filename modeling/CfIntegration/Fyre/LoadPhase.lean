import Mathlib.Data.NNRat.Defs
import CfIntegration.Fyre.CapacityDivision
import CfIntegration.Fyre.Report

/-! # What a load phase leaves behind

A phase is judged by the exit status of the load generator, the marker that starts the
measurement and the statistics it wrote. A phase that passed gives the rates that the
search and the report divide by.
-/

namespace CfIntegration.Fyre

open Capacity

/-- A cell of a statistics file. One that is absent or empty counts as zero. -/
inductive Cell (α : Type) where
  | absent
  | number (value : α)
  | unreadable
  deriving DecidableEq, Repr

/-- A row, as the load generator writes it. -/
structure StatsRow where
  name : String
  requestCount : Cell Nat
  failureCount : Cell Nat
  requestsPerSecond : Cell NNRat
  p50 : Cell ℚ
  p95 : Cell ℚ
  p99 : Cell ℚ
  deriving DecidableEq

inductive PhaseError where
  | value
  | runtime (message : String)
  deriving DecidableEq, Repr

def Cell.read {α : Type} [Zero α] : Cell α → Except PhaseError α
  | .absent => .ok 0
  | .number value => .ok value
  | .unreadable => .error .value

structure Stats where
  traffic : Traffic
  perReplicaRps : List (String × ℚ)
  rps_nonneg : 0 ≤ traffic.rps
  deriving DecidableEq

/-- A dictionary keeps the place of a key and its last value. -/
def setItem (items : List (String × ℚ)) (item : String × ℚ) : List (String × ℚ) :=
  if item.1 ∈ items.map Prod.fst then
    items.map fun other => if other.1 = item.1 then item else other
  else items ++ [item]

def isToolRow (row : StatsRow) : Bool := "MCP tools/call".toList.isPrefixOf row.name.toList

/-- The rows that are counted: the aggregate where it is wanted and there is one. -/
def selectedRows (rows : List StatsRow) (useAggregate : Bool) : List StatsRow :=
  match useAggregate, rows.find? fun row => row.name = "Aggregated" with
  | true, some aggregate => [aggregate]
  | _, _ => rows.filter isToolRow

/-- The mean of a column, weighted by the requests; without requests it is not read. -/
def weighted (selected : List StatsRow) (requests : Nat) (column : StatsRow → Cell ℚ) :
    Except PhaseError ℚ :=
  if requests = 0 then .ok 0
  else do
    let terms ← selected.mapM fun row => do
      let value ← (column row).read
      let count ← row.requestCount.read
      return value * count
    return terms.sum / requests

def readStats (path : String) (rows : List StatsRow) (useAggregate : Bool) :
    Except PhaseError Stats :=
  let toolRows := rows.filter isToolRow
  if toolRows = [] then
    .error (.runtime s!"Locust report {path} contains no measured tool traffic")
  else do
    let selected := selectedRows rows useAggregate
    let failures ← selected.mapM fun row => row.failureCount.read
    let requests ← selected.mapM fun row => row.requestCount.read
    let rates ← selected.mapM fun row => row.requestsPerSecond.read
    let perReplica ← toolRows.mapM fun row => do
      let rate : NNRat ← row.requestsPerSecond.read
      return (row.name, (rate : ℚ))
    let p50 ← weighted selected requests.sum StatsRow.p50
    let p95 ← weighted selected requests.sum StatsRow.p95
    let p99 ← weighted selected requests.sum StatsRow.p99
    let rps : NNRat := rates.sum
    return {
      traffic := ⟨requests.sum, failures.sum, rps, p50, p95, p99⟩
      perReplicaRps := perReplica.foldl setItem []
      rps_nonneg := rps.coe_nonneg }

inductive Marker where
  | missing
  | unreadable
  | start (time : ℚ)
  deriving DecidableEq, Repr

/-- What a phase leaves behind. The telemetry and the statistics may be unreadable. -/
structure PhaseEvidence (π : Type) where
  returncode : Int
  marker : Marker
  pressures : Option (List (String × π))
  statsPath : String
  rows : Option (List StatsRow)

inductive PhaseReport (π : Type) where
  | unfinished (reason : String) (pressures : List (String × π))
  | measured (stats : Stats) (passed : Bool) (pressures : List (String × π)) (users : Nat)

def PhaseReport.passed {π : Type} : PhaseReport π → Bool
  | .unfinished _ _ => false
  | .measured _ passed _ _ => passed

variable {π : Type}

/-- The phase after its load ended and its files were copied. -/
def onePhase (users : Nat) (evidence : PhaseEvidence π) : Except PhaseError (PhaseReport π) :=
  match evidence.marker, evidence.pressures with
  | .unreadable, _ => .error .value
  | _, none => .error .value
  | .missing, some pressures =>
      .ok (.unfinished "Locust did not record the measurement-window start" pressures)
  | .start _, some pressures =>
      if evidence.returncode ≠ 0 then
        .ok (.unfinished s!"Locust exited {evidence.returncode}" pressures)
      else
        match evidence.rows with
        | none => .error .value
        | some rows => do
            let stats ← readStats evidence.statsPath rows true
            return .measured stats (stats.traffic.failures = 0) pressures users

def Cell.value {α : Type} [Zero α] : Cell α → α
  | .number value => value
  | _ => 0

/-- The requests that the counted rows tell of, those that failed, and their rate. -/
def measuredRequests (rows : List StatsRow) : Nat :=
  ((selectedRows rows true).map fun row => row.requestCount.value).sum

def measuredFailures (rows : List StatsRow) : Nat :=
  ((selectedRows rows true).map fun row => row.failureCount.value).sum

def measuredRate (rows : List StatsRow) : NNRat :=
  ((selectedRows rows true).map fun row => row.requestsPerSecond.value).sum

/-- A phase that measured something: the load ended well, the measurement started, there
was a request, none failed, and their rate can be divided by. -/
structure Measured (evidence : PhaseEvidence π) : Prop where
  exited : evidence.returncode = 0
  started : ∃ time, evidence.marker = .start time
  counted : ∃ rows, evidence.rows = some rows ∧ 1 ≤ measuredRequests rows ∧
    measuredFailures rows = 0 ∧ measuredRate rows ≠ 0

/-- What is said of a phase: if it is reported as passed, it measured something. -/
def PassedMeasures (users : Nat) (evidence : PhaseEvidence π) : Prop :=
  ∀ report, onePhase users evidence = .ok report → report.passed = true → Measured evidence

/-- Nothing but an empty measurement stands against the phase. -/
structure Unhindered (evidence : PhaseEvidence π) (rows : List StatsRow) : Prop where
  exited : evidence.returncode = 0
  started : ∃ time, evidence.marker = .start time
  telemetry : evidence.pressures.isSome
  file : evidence.rows = some rows
  readable : ∃ stats, readStats evidence.statsPath rows true = .ok stats
  flawless : measuredFailures rows = 0

/-- The statistics of a phase that is not hindered otherwise count a request and a rate. -/
def CountsTraffic (evidence : PhaseEvidence π) : Prop :=
  ∀ rows, Unhindered evidence rows → 1 ≤ measuredRequests rows ∧ measuredRate rows ≠ 0

/-- Reading every cell of a column gives the column's values. -/
theorem mapM_read {α : Type} [Zero α] {rows : List StatsRow} {column : StatsRow → Cell α}
    {values : List α} (hread : (rows.mapM fun row => (column row).read) = .ok values) :
    values = rows.map fun row => (column row).value := by
  have hforall := except_mapM_eq_ok.mp hread
  clear hread
  induction hforall with
  | nil => rfl
  | @cons row value rows values hrow _ ih =>
      rw [List.map_cons, ← ih]
      congr 1
      cases hcell : column row <;> rw [hcell] at hrow <;> cases hrow <;> rfl

/-- The counts that were read are those of the counted rows. -/
theorem readStats_ok {path : String} {rows : List StatsRow} {stats : Stats}
    (hread : readStats path rows true = .ok stats) :
    stats.traffic.requests = measuredRequests rows ∧
      stats.traffic.failures = measuredFailures rows ∧
      stats.traffic.rps = measuredRate rows := by
  unfold readStats at hread
  dsimp only at hread
  split at hread
  · cases hread
  obtain ⟨failures, hfailures, hread⟩ := except_bind_eq_ok.mp hread
  obtain ⟨requests, hrequests, hread⟩ := except_bind_eq_ok.mp hread
  obtain ⟨rates, hrates, hread⟩ := except_bind_eq_ok.mp hread
  obtain ⟨perReplica, _, hread⟩ := except_bind_eq_ok.mp hread
  obtain ⟨p50, _, hread⟩ := except_bind_eq_ok.mp hread
  obtain ⟨p95, _, hread⟩ := except_bind_eq_ok.mp hread
  obtain ⟨p99, _, hread⟩ := except_bind_eq_ok.mp hread
  cases hread
  rw [mapM_read hfailures, mapM_read hrequests, mapM_read hrates]
  exact ⟨rfl, rfl, rfl⟩

/-- A phase passes exactly where nothing hinders its evidence. -/
theorem onePhase_passed_iff {users : Nat} {evidence : PhaseEvidence π} :
    (∃ report, onePhase users evidence = .ok report ∧ report.passed = true) ↔
      ∃ rows, Unhindered evidence rows := by
  unfold onePhase
  constructor
  · rintro ⟨report, hreport, hpassed⟩
    split at hreport
    · cases hreport
    · cases hreport
    · cases hreport
      cases hpassed
    next time pressures hmarker hpressures =>
      split at hreport
      · cases hreport
        cases hpassed
      next hcode =>
        split at hreport
        · cases hreport
        next rows hrows =>
          obtain ⟨stats, hstats, hreport⟩ := except_bind_eq_ok.mp hreport
          cases hreport
          exact ⟨rows, not_not.mp hcode, ⟨time, hmarker⟩, by simp [hpressures], hrows,
            ⟨stats, hstats⟩, (readStats_ok hstats).2.1 ▸ of_decide_eq_true hpassed⟩
  · rintro ⟨rows, hcode, ⟨time, hmarker⟩, htelemetry, hrows, ⟨stats, hstats⟩, hfailures⟩
    obtain ⟨pressures, hpressures⟩ := Option.isSome_iff_exists.mp htelemetry
    rw [hmarker, hpressures]
    simp only [hcode, ne_eq, not_true_eq_false, if_false, hrows, hstats]
    refine ⟨_, rfl, decide_eq_true ?_⟩
    rw [(readStats_ok hstats).2.1, hfailures]

/-- A passed phase measured something exactly where its statistics count traffic. -/
theorem passedMeasures_iff (users : Nat) (evidence : PhaseEvidence π) :
    PassedMeasures users evidence ↔ CountsTraffic evidence := by
  constructor
  · intro hmeasures rows hunhindered
    obtain ⟨report, hreport, hpassed⟩ := onePhase_passed_iff.mpr ⟨rows, hunhindered⟩
    obtain ⟨counted, hcounted, hrequests, -, hrate⟩ := (hmeasures report hreport hpassed).counted
    rw [hunhindered.file] at hcounted
    cases hcounted
    exact ⟨hrequests, hrate⟩
  · intro htraffic report hreport hpassed
    obtain ⟨rows, hunhindered⟩ := onePhase_passed_iff.mp ⟨report, hreport, hpassed⟩
    obtain ⟨hrequests, hrate⟩ := htraffic rows hunhindered
    exact ⟨hunhindered.exited, hunhindered.started,
      ⟨rows, hunhindered.file, hrequests, hunhindered.flawless, hrate⟩⟩

def Stats.phase (stats : Stats) : Phase where
  rps := stats.traffic.rps
  perReplicaRps := stats.perReplicaRps.map Prod.snd
  p50Ms := stats.traffic.p50Ms
  p95Ms := stats.traffic.p95Ms
  p99Ms := stats.traffic.p99Ms
  rps_nonneg := stats.rps_nonneg

/-- A measured step, from what its phase leaves behind. Without a phase the step raised: its
smoke test failed, a remote command did, or a helper was saturated. -/
def stepOutcome (users : Nat) (evidence : Option (PhaseEvidence π)) : StepOutcome :=
  match evidence with
  | none => .raised
  | some evidence =>
      match onePhase users evidence with
      | .error _ => .raised
      | .ok (.measured stats true _ _) => .passed stats.phase
      | .ok _ => .failed

/-- A run of a comparison lane, from what its phase leaves behind. -/
def laneOutcome (phases : Nat → Option (PhaseEvidence π)) (users : Nat) : Option Traffic :=
  match phases users with
  | none => none
  | some evidence =>
      match onePhase users evidence with
      | .ok (.measured stats _ _ _) => some stats.traffic
      | _ => none

/-- A rate that is not zero is at least the least positive number of the arithmetic. -/
def Representable (least : ℚ) (evidence : PhaseEvidence π) : Prop :=
  ∀ rows, evidence.rows = some rows → measuredRate rows ≠ 0 → least ≤ measuredRate rows

/-- A phase that is measured reports the level it was asked for. -/
theorem onePhase_measured {users level : Nat} {evidence : PhaseEvidence π} {stats : Stats}
    {passed : Bool} {pressures : List (String × π)}
    (hreport : onePhase users evidence = .ok (.measured stats passed pressures level)) :
    passed = decide (stats.traffic.failures = 0) ∧ ∃ rows, evidence.rows = some rows ∧
      stats.traffic.rps = measuredRate rows := by
  unfold onePhase at hreport
  split at hreport
  · cases hreport
  · cases hreport
  · cases hreport
  · split at hreport
    · cases hreport
    · split at hreport
      · cases hreport
      next rows hrows =>
        obtain ⟨read, hread, hreport⟩ := except_bind_eq_ok.mp hreport
        cases hreport
        exact ⟨rfl, rows, hrows, (readStats_ok hread).2.2⟩

/-- A phase that passed has the rate of the traffic it counts. -/
theorem rate_of_passed {users level : Nat} {evidence : PhaseEvidence π} {stats : Stats}
    {pressures : List (String × π)}
    (hreport : onePhase users evidence = .ok (.measured stats true pressures level))
    (htraffic : CountsTraffic evidence) :
    ∃ rows, evidence.rows = some rows ∧ stats.traffic.rps = measuredRate rows ∧
      measuredRate rows ≠ 0 := by
  obtain ⟨counted, hcounted, -, -, hrate⟩ :=
    ((passedMeasures_iff users evidence).mpr htraffic _ hreport rfl).counted
  obtain ⟨-, rows, hrows, hrps⟩ := onePhase_measured hreport
  rw [hcounted] at hrows
  cases hrows
  exact ⟨counted, hcounted, hrps, hrate⟩

/-- A step that passes with traffic has at least the least rate. -/
theorem stepOutcome_rated {users : Nat} {evidence : Option (PhaseEvidence π)} {phase : Phase}
    {least : ℚ} (hphase : stepOutcome users evidence = .passed phase)
    (htraffic : ∀ left, evidence = some left → CountsTraffic left ∧ Representable least left) :
    least ≤ phase.rps := by
  unfold stepOutcome at hphase
  split at hphase
  · cases hphase
  next left =>
    split at hphase
    · cases hphase
    next stats pressures level hreport =>
      cases hphase
      obtain ⟨hcounts, hrepresentable⟩ := htraffic left rfl
      obtain ⟨rows, hrows, hrps, hrate⟩ := rate_of_passed hreport hcounts
      change least ≤ stats.traffic.rps
      rw [hrps]
      exact hrepresentable rows hrows hrate
    · cases hphase

/-- The runs of a lane are those of its phases, and they passed. -/
theorem laneRuns_mem {onePhase : Nat → Option Traffic} {levels : List UInt32}
    {runs : List ComparisonPhase} (hruns : laneRuns onePhase levels = some runs)
    {phase : ComparisonPhase} (hphase : phase ∈ runs) :
    onePhase phase.users = some phase.traffic ∧ phase.traffic.failures = 0 := by
  induction levels generalizing runs with
  | nil =>
      cases hruns
      cases hphase
  | cons users rest ih =>
      unfold laneRuns at hruns
      split at hruns
      next traffic htraffic =>
        split at hruns
        next hfailures =>
          obtain ⟨later, hlater, rfl⟩ := Option.map_eq_some_iff.mp hruns
          rcases List.mem_cons.mp hphase with rfl | hphase
          · exact ⟨htraffic, hfailures⟩
          · exact ih hlater hphase
        · cases hruns
      · cases hruns

/-- The runs of a lane that counted traffic have a rate. -/
theorem laneRuns_rated {phases : Nat → Option (PhaseEvidence π)} {levels : List UInt32}
    {runs : List ComparisonPhase} (hruns : laneRuns (laneOutcome phases) levels = some runs)
    (htraffic : ∀ users left, phases users = some left → CountsTraffic left)
    {phase : ComparisonPhase} (hphase : phase ∈ runs) : phase.traffic.rps ≠ 0 := by
  obtain ⟨houtcome, hfailures⟩ := laneRuns_mem hruns hphase
  unfold laneOutcome at houtcome
  split at houtcome
  · cases houtcome
  next left hleft =>
    split at houtcome
    next stats passed pressures level hreport =>
      rw [← Option.some.inj houtcome] at hfailures ⊢
      obtain ⟨hpassed, -⟩ := onePhase_measured hreport
      rw [hfailures] at hpassed
      cases hpassed
      obtain ⟨rows, -, hrps, hrate⟩ := rate_of_passed hreport (htraffic _ left hleft)
      rw [hrps]
      exact_mod_cast hrate
    · cases houtcome

/-- The built-in lane of a comparison was run with these phases. -/
def BuiltinPhases (config : FyreConfig) (results : String → Option ResultFile)
    (phases : Nat → Option (PhaseEvidence π)) : Prop :=
  ∀ result, results "comparison" = some (.comparison result) →
    ∃ rust, fixedComparison rust (laneOutcome phases) config = some result

/-- The report of a valid campaign whose phases counted traffic divides by no zero. -/
theorem report_dividesByNoZero {floating : Floating} {config : FyreConfig}
    {results : String → Option ResultFile} (hvalid : validateConfig config = .ok ⟨⟩)
    (hcampaign : Campaign floating config results) {phases : Nat → Option (PhaseEvidence π)}
    (hphases : BuiltinPhases config results phases)
    (htraffic : ∀ users left, phases users = some left → CountsTraffic left) :
    report floating config results ≠ .error .zeroDivision := by
  -- Every builtin phase has counted traffic, so none has the rate zero.
  have hbuiltin : ∀ result, results "comparison" = some (.comparison result) →
      ∀ phase ∈ result.builtin, phase.traffic.rps ≠ 0 := by
    intro result hresult phase hphase
    obtain ⟨rust, hfixed⟩ := hphases result hresult
    unfold fixedComparison at hfixed
    split at hfixed
    next hlane =>
      cases hfixed
      exact laneRuns_rated hlane htraffic hphase
    · cases hfixed
  by_cases hreportable : Reportable config results
  · obtain ⟨summary, hsummary⟩ := (report_iff hvalid hcampaign).mpr hreportable
    rw [hsummary]
    exact nofun
  -- Otherwise a result file is missing, and the report fails for that.
  · have hmissing : ∀ id, id ∉ config.scenarios.map Scenario.id → results id = none := by
      intro id hid
      cases hfile : results id with
      | none => rfl
      | some file => exact absurd (hcampaign.only id file hfile) hid
    unfold report
    rcases (validateConfig_ok hvalid).kind with ⟨hkind, -⟩ | ⟨hkind, -, -⟩
    · have hother : config.benchmarkKind ≠ "comparison" := by
        rw [hkind]
        decide
      rw [if_neg hother]
      by_cases hbaseline : "baseline" ∈ config.scenarios.map Scenario.id
      · exact absurd ⟨fun _ => hbaseline, fun hcomparison => absurd hcomparison hother⟩ hreportable
      · unfold scalingReport loadedResult
        rw [if_neg hbaseline]
        exact nofun
    · have hother : config.benchmarkKind ≠ "scaling" := by
        rw [hkind]
        decide
      rw [if_pos hkind]
      by_cases hid : "comparison" ∈ config.scenarios.map Scenario.id
      · exact absurd ⟨fun hscaling => absurd hscaling hother, fun _ => ⟨hid, hbuiltin⟩⟩ hreportable
      · unfold comparisonReport
        rw [hmissing _ hid]
        exact nofun

/-- A passed phase measured something exactly where its statistics count a request and a
rate. In runs of such phases neither the search nor the report divides by zero. -/
theorem onePhase_measures :
    (∀ users (evidence : PhaseEvidence π),
      PassedMeasures users evidence ↔ CountsTraffic evidence) ∧
    ∀ config, validateConfig config = .ok ⟨⟩ → ∀ floating least, floating.Least least →
      (∀ env (phases : List (Nat × Bool) → Nat → Option (PhaseEvidence π)),
        (∀ measurements users,
          env.oracle measurements users = stepOutcome users (phases measurements users)) →
        (∀ measurements users left, phases measurements users = some left →
          CountsTraffic left ∧ Representable least left) →
        ∀ fuel, (capacitySearch floating env config.workload fuel).Ensures .initial
          (OnlyEnvRaises env fun _ _ => True)) ∧
      ∀ results, Campaign floating config results →
        ∀ phases : Nat → Option (PhaseEvidence π), BuiltinPhases config results phases →
          (∀ users left, phases users = some left → CountsTraffic left) →
          report floating config results ≠ .error .zeroDivision := by
  refine ⟨passedMeasures_iff, fun config hvalid floating least hleast => ⟨?_, ?_⟩⟩
  · intro env phases henv htraffic fuel
    refine capacitySearch_raises hleast (fun measurements users phase hphase => ?_)
      (repetitions_pos hvalid) fuel
    rw [henv] at hphase
    exact stepOutcome_rated hphase (htraffic measurements users)
  · intro results hcampaign phases hphases htraffic
    exact report_dividesByNoZero hvalid hcampaign hphases htraffic

def busyRow (name : String) : StatsRow :=
  ⟨name, .number 1000, .number 0, .number 10, .number 1, .number 2, .number 3⟩

/-- A phase with the same statistics at every level. -/
def busyPhase : PhaseEvidence Unit where
  returncode := 0
  marker := .start 0
  pressures := some []
  statsPath := "locust_stats.csv"
  rows := some [busyRow "MCP tools/call echo", busyRow "Aggregated"]

theorem countsTraffic_busy : CountsTraffic busyPhase ∧ Representable 10 busyPhase := by
  constructor
  · intro rows hunhindered
    obtain rfl := Option.some.inj hunhindered.file
    decide +kernel
  · intro rows hrows _
    obtain rfl := Option.some.inj hrows
    decide +kernel

theorem zero_elapsed_nonneg (reading : Nat) : (0 : ℚ) ≤ (fun _ : Nat => 0) reading := le_rfl

theorem zero_elapsed_monotone : Monotone fun _ : Nat => (0 : ℚ) := monotone_const

def busyEnv : SearchEnv where
  oracle _ users := stepOutcome users (some busyPhase)
  elapsed _ := 0
  elapsed_nonneg := zero_elapsed_nonneg
  elapsed_monotone := zero_elapsed_monotone
  calibration _ users := stepOutcome users (some busyPhase)

theorem onePhase_measures_busy : PassedMeasures 125 busyPhase ∧
    (capacitySearch (.exact fun _ => 0) busyEnv
      (comparisonProfile "comparison" ⟨4, 4⟩).workload 40).Ensures .initial
      (OnlyEnvRaises busyEnv fun _ _ => True) ∧
    report (.exact fun _ => 0) (comparisonProfile "comparison" ⟨4, 4⟩)
      (steadyResults "comparison") ≠ .error .zeroDivision := by
  have hleast : (Floating.exact fun _ => 0).Least 10 := ⟨by norm_num, fun _ _ => rfl⟩
  have hruns := (@onePhase_measures Unit).2 (comparisonProfile "comparison" ⟨4, 4⟩) (by rfl) _ _
    hleast
  refine ⟨(onePhase_measures.1 125 busyPhase).mpr countsTraffic_busy.1, ?_, ?_⟩
  · apply hruns.1 busyEnv fun _ _ => some busyPhase
    · intro _ _
      rfl
    · rintro _ _ _ ⟨⟩
      exact countsTraffic_busy
  · apply hruns.2 _ (campaign_steady _ _ _) fun _ => some busyPhase
    · intro result hresult
      cases hresult
      exact ⟨steadyTraffic, by decide +kernel⟩
    · rintro _ _ ⟨⟩
      exact countsTraffic_busy.1

/-- A phase in which nothing was requested after the statistics were reset. -/
def idlePhase : PhaseEvidence Unit where
  returncode := 0
  marker := .start 0
  pressures := some []
  statsPath := "locust_stats.csv"
  rows := some [
    ⟨"MCP tools/call echo", .number 0, .number 0, .number 0, .unreadable, .unreadable, .unreadable⟩,
    ⟨"Aggregated", .number 0, .number 0, .number 0, .unreadable, .unreadable, .unreadable⟩]

def idleEnv : SearchEnv where
  oracle _ users := stepOutcome users (some idlePhase)
  elapsed _ := 0
  elapsed_nonneg := zero_elapsed_nonneg
  elapsed_monotone := zero_elapsed_monotone
  calibration _ users := stepOutcome users (some idlePhase)

/-- It is reported as passed, and the search divides by its rate at the second level. -/
theorem onePhase_idle : ¬ PassedMeasures 125 idlePhase ∧
    ¬ (capacitySearch (.exact fun _ => 0) idleEnv packagedProfile.workload 2).Ensures .initial
      (OnlyEnvRaises idleEnv fun _ _ => True) := by
  have hpassed : ∃ report, onePhase 125 idlePhase = .ok report ∧ report.passed = true :=
    ⟨_, rfl, rfl⟩
  refine ⟨fun hmeasures => ?_, fun hraises => ?_⟩
  · obtain ⟨report, hreport, hreported⟩ := hpassed
    obtain ⟨rows, hrows, hrequests, -⟩ := (hmeasures report hreport hreported).counted
    cases hrows
    exact absurd hrequests (by decide)
  · have hrun : (capacitySearch (.exact fun _ => 0) idleEnv packagedProfile.workload 2
        .initial).1 = .error .zeroDivision := by decide +kernel
    unfold Action.Ensures Action.run at hraises
    rw [hrun] at hraises
    exact hraises

end CfIntegration.Fyre
