import CfIntegration.Conformance.Baseline
import CfIntegration.Runtime.Failure

/-! # Artifacts of one matrix entry

Each lane of an entry has a directory with its run metadata, the official
results and a completion marker. A lane's artifacts are used only when all three
are there, name the pinned run, and cover the scenario catalog exactly.
-/

namespace CfIntegration.Runtime

open Conformance

def conformanceCompletionMarker : Bytes := "complete\n".toUTF8.toList

/-- What the official result path resolves to, with its canonical file name. -/
structure OfficialDirectory where
  name : Option String
  tree : Tree Bytes

structure LaneArtifact where
  metadata : Option ConformanceRunMetadata
  official : Option OfficialDirectory
  completion : Option Bytes

namespace LaneArtifact

def empty : LaneArtifact := ⟨none, none, none⟩

def officialIsDir (artifact : LaneArtifact) : Bool :=
  match artifact.official with
  | some ⟨_, .directory _⟩ => true
  | _ => false

end LaneArtifact

/-- The artifacts of one client version and server era. -/
abbrev EntryArtifacts := ConformanceDirection → SemanticLane → LaneArtifact

def EntryArtifacts.set (artifacts : EntryArtifacts) (direction : ConformanceDirection)
    (lane : SemanticLane) (artifact : LaneArtifact) : EntryArtifacts :=
  fun otherDirection otherLane =>
    if otherDirection = direction ∧ otherLane = lane then artifact
    else artifacts otherDirection otherLane

@[simp] theorem EntryArtifacts.set_self (artifacts : EntryArtifacts)
    (direction : ConformanceDirection) (lane : SemanticLane) (artifact : LaneArtifact) :
    artifacts.set direction lane artifact direction lane = artifact := if_pos ⟨rfl, rfl⟩

theorem EntryArtifacts.set_of_ne (artifacts : EntryArtifacts)
    {direction otherDirection : ConformanceDirection} {lane otherLane : SemanticLane}
    (hne : ¬ (otherDirection = direction ∧ otherLane = lane)) (artifact : LaneArtifact) :
    artifacts.set direction lane artifact otherDirection otherLane =
      artifacts otherDirection otherLane := if_neg hne

def clientEraForVersion (clientVersion : String) : String :=
  if clientVersion = legacyMcpSpecVersion ∨ clientVersion = stableMcpSpecVersion then "legacy"
  else if clientVersion = defaultMcpSpecVersion then "modern"
  else "unknown"

def identity (clientVersion : String) (serverEra : ConformanceServerEra) : String :=
  s!"client {clientEraForVersion clientVersion} [{clientVersion}], server {serverEra.label} [{
    serverEra.protocolVersionsLabel}]"

structure ConformancePaths where
  clientVersion : String
  serverEra : ConformanceServerEra
  deriving DecidableEq

namespace ConformancePaths

/-- Where the artifacts lie below their root, and the reports below theirs. -/
def partition (paths : ConformancePaths) : List String :=
  ["conformance", paths.clientVersion, paths.serverEra.label]

def comparison (paths : ConformancePaths) : List String :=
  paths.partition ++ ["mcp-conformance-comparison.md"]

/-- Where the artifacts of a lane lie. -/
def lane (paths : ConformancePaths) (direction : ConformanceDirection) (target : SemanticLane) :
    List String :=
  match direction with
  | .server => paths.partition ++ [target.slug]
  | .client => paths.partition ++ ["client", target.slug]

def identity (paths : ConformancePaths) : String :=
  Runtime.identity paths.clientVersion paths.serverEra

theorem comparison_injective : Function.Injective comparison := by
  intro first second heq
  rcases first with ⟨firstVersion, firstEra⟩
  rcases second with ⟨secondVersion, secondEra⟩
  simp only [comparison, partition, List.cons_append, List.nil_append, List.cons.injEq, true_and,
    and_true] at heq
  obtain ⟨hversion, hera⟩ := heq
  rw [hversion, ConformanceServerEra.label_injective hera]

end ConformancePaths

/-- The result loader, with the JSON library's reading of a `checks.json` file. -/
abbrev ChecksParser := Bytes → Except String (List ConformanceCheck)

def loadServerResults (parseChecks : ChecksParser) (official : Option OfficialDirectory) :
    Except String ConformanceResults :=
  loadResults parseChecks (official.bind OfficialDirectory.name)
    (official.map OfficialDirectory.tree) (some "server-")

def loadClientResults (parseChecks : ChecksParser) (official : Option OfficialDirectory) :
    Except String ConformanceResults :=
  loadResults parseChecks (official.bind OfficialDirectory.name)
    (official.map OfficialDirectory.tree) none

structure LoadedConformanceArtifact where
  results : ConformanceResults
  metadata : ConformanceRunMetadata

def loadDirectionResults (parseChecks : ChecksParser) (direction : ConformanceDirection)
    (metadata : ConformanceRunMetadata) (official : Option OfficialDirectory) :
    Except String ConformanceResults :=
  match direction with
  | .server => do
      let results ← loadServerResults parseChecks official
      validateServerScenarioSet results metadata.suite metadata.clientVersion
      return results
  | .client => do
      let results ← loadClientResults parseChecks official
      validateClientScenarioSet results metadata.clientVersion
      return results

def incompleteArtifacts (paths : ConformancePaths) (direction : ConformanceDirection)
    (target : SemanticLane) : String :=
  let root := "/".intercalate (paths.lane direction target)
  s!"incomplete conformance artifacts for {target.label} beneath {root}"

def invalidMarker (paths : ConformancePaths) (direction : ConformanceDirection)
    (target : SemanticLane) : String :=
  let marker := "/".intercalate (paths.lane direction target ++ ["complete"])
  s!"invalid conformance completion marker {marker.quote}"

def noArtifacts (paths : ConformancePaths) : String :=
  "no official conformance artifacts found beneath " ++ "/".intercalate paths.partition

def missingLanes (paths : ConformancePaths) (missing : List (SemanticLane × Bool)) : String :=
  let names := ", ".intercalate ((missing.filter (·.2)).map (·.1.slug))
  s!"missing conformance lanes for {paths.identity}: {names}"

/-- Load one lane: `none` when it left nothing, an error when it left only a
part or something that cannot be trusted. -/
def loadConformanceArtifact (parseChecks : ChecksParser) (paths : ConformancePaths)
    (artifacts : EntryArtifacts) (direction : ConformanceDirection) (target : SemanticLane) :
    AppResult (Option LoadedConformanceArtifact) :=
  let artifact := artifacts direction target
  if artifact.metadata = none ∧ artifact.officialIsDir = false ∧ artifact.completion = none then
    .ok none
  else
    match artifact.metadata, artifact.completion with
    | some metadata, some marker => fromNative do
        bailIf (artifact.officialIsDir = false)
          (incompleteArtifacts paths direction target)
        bailIf (marker ≠ conformanceCompletionMarker) (invalidMarker paths direction target)
        bailIf (metadata.direction ≠ direction) s!"conformance metadata direction {
          metadata.direction.label} does not match {direction.label}"
        bailIf (metadata.target ≠ target.label) s!"conformance metadata target {
          metadata.target.quote} does not match {target.label}"
        bailIf (metadata.oracle ≠ officialConformancePackage)
          s!"conformance artifacts used oracle {metadata.oracle.quote}, expected {
            officialConformancePackage.quote}"
        bailIf (isTrustedOfficialFixture metadata.fixture = false)
          "conformance artifacts do not identify the pinned official fixture"
        let results ← loadDirectionResults parseChecks direction metadata artifact.official
        validateScoredResults results
        return some { results, metadata }
    | _, _ => .error (.native (incompleteArtifacts paths direction target))

/-- The lanes whose artifacts are read: the selected ones, and the direct
fixture as evidence for a routed one. -/
def conformanceEvidenceLanes (selected : List SemanticLane) : List SemanticLane :=
  allConformanceLanes.filter fun lane =>
    selected.contains lane || (selected.any SemanticLane.isRouted && lane == .fixtureDirect)

/-- Add one lane's results when the lane completed. -/
def loadCompletedLane (parseChecks : ChecksParser) (paths : ConformancePaths)
    (artifacts : EntryArtifacts) (results : LaneResults) (lane : SemanticLane) :
    AppResult LaneResults := do
  match ← loadConformanceArtifact parseChecks paths artifacts .server lane with
  | some artifact =>
      return fun other => if other = lane then some artifact.results else results other
  | none => return results

def loadCompletedConformanceResults (parseChecks : ChecksParser) (paths : ConformancePaths)
    (artifacts : EntryArtifacts) (lanes : List SemanticLane) : AppResult LaneResults :=
  (conformanceEvidenceLanes lanes).foldlM (loadCompletedLane parseChecks paths artifacts)
    fun _ => none

def loadSelectedConformanceResults (parseChecks : ChecksParser) (paths : ConformancePaths)
    (artifacts : EntryArtifacts) (lanes : List SemanticLane) : AppResult LaneResults := do
  let results ← loadCompletedConformanceResults parseChecks paths artifacts lanes
  match (conformanceEvidenceLanes lanes).find? fun lane => (results lane).isNone with
  | some lane => .error (.native
      s!"missing required conformance lane {lane.slug} for {paths.identity}")
  | none => return results

def loadCompletedClientConformanceResults (parseChecks : ChecksParser) (paths : ConformancePaths)
    (artifacts : EntryArtifacts) : AppResult LaneResults := do
  match ← loadConformanceArtifact parseChecks paths artifacts .client .externalDataPlane with
  | some artifact =>
      return fun lane => if lane = .externalDataPlane then some artifact.results else none
  | none => return fun _ => none

/-- The message for the run that was asked for. -/
def mismatchedRun : Option (String × ConformanceServerEra × String) → String
  | none => ""
  | some (specVersion, serverEra, suite) =>
      s!"conformance artifacts do not match requested client spec version {
        specVersion.quote}, server era {serverEra.debug}, and suite {suite.quote}"

/-- The metadata three lanes share, when they come from compatible runs. -/
def compatibleMetadata (fixture builtIn external : ConformanceRunMetadata)
    (expectedRun : Option (String × ConformanceServerEra × String)) :
    Except String ConformanceRunMetadata := do
  [builtIn, external].forM fun candidate => do
    bailIf (candidate.fixture ≠ fixture.fixture)
      ("direct fixture, built-in dataplane, and external dataplane conformance fixture " ++
        "provenance mismatch")
    bailIf (candidate.clientVersion ≠ fixture.clientVersion ∨
        candidate.serverEra ≠ fixture.serverEra ∨ candidate.suite ≠ fixture.suite ∨
        candidate.oracle ≠ fixture.oracle)
      ("direct fixture, built-in dataplane, and external dataplane conformance artifacts " ++
        "were produced by incompatible runs")
  bailIf (expectedRun.any fun (specVersion, serverEra, suite) =>
      fixture.clientVersion ≠ specVersion || fixture.serverEra ≠ serverEra ||
        fixture.suite ≠ suite)
    (mismatchedRun expectedRun)
  return fixture

/-- The artifacts a comparison report is written from. -/
def comparisonArtifacts (parseChecks : ChecksParser) (paths : ConformancePaths)
    (artifacts : EntryArtifacts) (expectedRun : Option (String × ConformanceServerEra × String)) :
    AppResult (ConformanceRunMetadata × List LoadedConformanceArtifact) := do
  let fixture ← loadConformanceArtifact parseChecks paths artifacts .server .fixtureDirect
  let builtIn ← loadConformanceArtifact parseChecks paths artifacts .server .builtInDataPlane
  let external ← loadConformanceArtifact parseChecks paths artifacts .server .externalDataPlane
  match fixture, builtIn, external with
  | none, none, none => .error (.native (noArtifacts paths))
  | some fixture, some builtIn, some external =>
      let metadata ← fromNative
        (compatibleMetadata fixture.metadata builtIn.metadata external.metadata expectedRun)
      return (metadata, [fixture, builtIn, external])
  | fixture, builtIn, external =>
      .error (.native (missingLanes paths [(.fixtureDirect, fixture.isNone),
        (.builtInDataPlane, builtIn.isNone), (.externalDataPlane, external.isNone)]))

def loadOfficialResults (parseChecks : ChecksParser) (direction : ConformanceDirection)
    (official : Option OfficialDirectory) : Except String ConformanceResults :=
  match direction with
  | .server => loadServerResults parseChecks official
  | .client => loadClientResults parseChecks official

/-- The catalog a lane's results have to cover. -/
def expectedScenarios (direction : ConformanceDirection) (suite clientVersion : String) :
    Except String (OrderedSet String) :=
  match direction with
  | .server => expectedServerScenarios suite clientVersion
  | .client => expectedClientScenarios clientVersion

/-- Complete artifacts of the pinned oracle and fixture that cover the catalog
exactly and hold no unknown status. -/
structure TrustedArtifact (parseChecks : ChecksParser) (direction : ConformanceDirection)
    (target : SemanticLane) (artifact : LaneArtifact) (loaded : LoadedConformanceArtifact) :
    Prop where
  metadata : artifact.metadata = some loaded.metadata
  directory : artifact.officialIsDir = true
  completion : artifact.completion = some conformanceCompletionMarker
  ranDirection : loaded.metadata.direction = direction
  ranTarget : loaded.metadata.target = target.label
  oracle : loaded.metadata.oracle = officialConformancePackage
  fixture : loaded.metadata.fixture = officialFixture
  results : loadOfficialResults parseChecks direction artifact.official = .ok loaded.results
  covers : ∃ expected, expectedScenarios direction loaded.metadata.suite
    loaded.metadata.clientVersion = .ok expected ∧ CoversExactly loaded.results expected
  scored : ∃ findings, scoredFindings loaded.results = .ok findings

theorem loadDirectionResults_ok_iff {parseChecks : ChecksParser} {direction : ConformanceDirection}
    {metadata : ConformanceRunMetadata} {official : Option OfficialDirectory}
    {results : ConformanceResults} :
    loadDirectionResults parseChecks direction metadata official = .ok results ↔
      loadOfficialResults parseChecks direction official = .ok results ∧
      ∃ expected, expectedScenarios direction metadata.suite metadata.clientVersion =
        .ok expected ∧ CoversExactly results expected := by
  cases direction <;>
    simp only [loadDirectionResults, loadOfficialResults, expectedScenarios, except_bind_eq_ok,
      validateServerScenarioSet_ok_iff, validateClientScenarioSet_ok_iff, pure, Except.pure,
      Except.ok.injEq] <;>
    constructor
  case server.mp | client.mp =>
    rintro ⟨loaded, hloaded, _, hcovers, rfl⟩
    exact ⟨hloaded, hcovers⟩
  case server.mpr | client.mpr =>
    rintro ⟨hloaded, hcovers⟩
    exact ⟨results, hloaded, ⟨⟩, hcovers, rfl⟩

theorem loadConformanceArtifact_some_iff {parseChecks : ChecksParser}
    {paths : ConformancePaths} {artifacts : EntryArtifacts}
    {direction : ConformanceDirection} {target : SemanticLane}
    {loaded : LoadedConformanceArtifact} :
    loadConformanceArtifact parseChecks paths artifacts direction target = .ok (some loaded) ↔
      TrustedArtifact parseChecks direction target (artifacts direction target) loaded := by
  unfold loadConformanceArtifact
  dsimp only
  rcases artifacts direction target with ⟨metadata, official, completion⟩
  constructor
  · intro hload
    split at hload
    · simp at hload
    split at hload
    next metadata marker hmetadata hcompletion =>
      simp only [fromNative_eq_ok, except_bind_eq_ok, bailIf_eq_ok, loadDirectionResults_ok_iff,
        isTrustedOfficialFixture_iff, validateScoredResults, pure, Except.pure, Except.ok.injEq,
        Bool.not_eq_false, not_not, ne_eq, Option.some.injEq] at hload
      obtain ⟨_, hdirectory, _, hmarker, _, hdirection, _, htarget, _, horacle, _, hfixture,
        results, ⟨hresults, hcovers⟩, _, ⟨findings, hscored, _⟩, rfl⟩ := hload
      exact ⟨hmetadata, hdirectory, hmarker ▸ hcompletion, hdirection, htarget, horacle, hfixture,
        hresults, hcovers, findings, hscored⟩
    · contradiction
  · rintro ⟨hmetadata, hdirectory, hcompletion, hdirection, htarget, horacle, hfixture, hresults,
      hcovers, findings, hscored⟩
    dsimp only at hmetadata hcompletion
    subst hmetadata hcompletion
    rw [if_neg (by simp)]
    simp only [fromNative_eq_ok, except_bind_eq_ok, bailIf_eq_ok, loadDirectionResults_ok_iff,
      isTrustedOfficialFixture_iff, validateScoredResults, pure, Except.pure, Except.ok.injEq,
      Bool.not_eq_false, not_not, ne_eq, Option.some.injEq]
    exact ⟨⟨⟩, hdirectory, ⟨⟩, trivial, ⟨⟩, hdirection, ⟨⟩, htarget, ⟨⟩, horacle, ⟨⟩, hfixture,
      loaded.results, ⟨hresults, hcovers⟩, ⟨⟩, ⟨findings, hscored, trivial⟩, rfl⟩

theorem loadConformanceArtifact_none_iff {parseChecks : ChecksParser}
    {paths : ConformancePaths} {artifacts : EntryArtifacts}
    {direction : ConformanceDirection} {target : SemanticLane} :
    loadConformanceArtifact parseChecks paths artifacts direction target = .ok none ↔
      (artifacts direction target).metadata = none ∧
        (artifacts direction target).officialIsDir = false ∧
        (artifacts direction target).completion = none := by
  unfold loadConformanceArtifact
  dsimp only
  split
  next hnothing => simp [hnothing]
  next hsomething =>
    refine iff_of_false (fun hload => ?_) hsomething
    split at hload
    · simp [except_bind_eq_ok, pure, Except.pure] at hload
    · contradiction

theorem mem_conformanceEvidenceLanes {selected : List SemanticLane} {lane : SemanticLane} :
    lane ∈ conformanceEvidenceLanes selected ↔
      lane ∈ selected ∨ lane = .fixtureDirect ∧ ∃ routed ∈ selected, routed.isRouted = true := by
  simp [conformanceEvidenceLanes, mem_allConformanceLanes, and_comm]

/-- What loading finds for one lane: its results, when it is complete. -/
def completedResults (parseChecks : ChecksParser) (paths : ConformancePaths)
    (artifacts : EntryArtifacts) (lane : SemanticLane) : Option ConformanceResults :=
  match loadConformanceArtifact parseChecks paths artifacts .server lane with
  | .ok (some artifact) => some artifact.results
  | _ => none

theorem loadCompletedLane_ok_iff {parseChecks : ChecksParser}
    {paths : ConformancePaths} {artifacts : EntryArtifacts}
    {results next : LaneResults} {lane : SemanticLane} :
    loadCompletedLane parseChecks paths artifacts results lane = .ok next ↔
      (∃ loaded, loadConformanceArtifact parseChecks paths artifacts .server lane = .ok loaded) ∧
        next = fun other => if other = lane then
          (completedResults parseChecks paths artifacts lane).orElse fun _ => results other
          else results other := by
  unfold loadCompletedLane completedResults
  cases loadConformanceArtifact parseChecks paths artifacts .server lane with
  | error failure => simp [bind, Except.bind]
  | ok loaded =>
      cases loaded <;> simp [bind, Except.bind, pure, Except.pure, eq_comm]

theorem foldlM_loadCompletedLane_ok_iff {parseChecks : ChecksParser}
    {paths : ConformancePaths} {artifacts : EntryArtifacts}
    {lanes : List SemanticLane} {start results : LaneResults} :
    lanes.foldlM (loadCompletedLane parseChecks paths artifacts) start = .ok results ↔
      (∀ lane ∈ lanes, ∃ loaded, loadConformanceArtifact parseChecks paths artifacts .server lane =
        .ok loaded) ∧
      results = fun lane => if lane ∈ lanes then
        (completedResults parseChecks paths artifacts lane).orElse fun _ => start lane
        else start lane := by
  induction lanes generalizing start with
  | nil => simp [pure, Except.pure, eq_comm]
  | cons head rest ih =>
      simp only [List.foldlM_cons, except_bind_eq_ok, loadCompletedLane_ok_iff, ih, List.mem_cons,
        forall_eq_or_imp]
      constructor
      · rintro ⟨_, ⟨hhead, rfl⟩, hrest, rfl⟩
        refine ⟨⟨hhead, hrest⟩, funext fun lane => ?_⟩
        by_cases hlane : lane = head
        · subst hlane
          cases completedResults parseChecks paths artifacts lane <;> simp
        · simp [hlane]
      · rintro ⟨⟨hhead, hrest⟩, rfl⟩
        refine ⟨_, ⟨hhead, rfl⟩, hrest, funext fun lane => ?_⟩
        by_cases hlane : lane = head
        · subst hlane
          cases completedResults parseChecks paths artifacts lane <;> simp
        · simp [hlane]

theorem completedResults_eq_some_iff {parseChecks : ChecksParser}
    {paths : ConformancePaths} {artifacts : EntryArtifacts}
    {lane : SemanticLane} {results : ConformanceResults} :
    completedResults parseChecks paths artifacts lane = some results ↔
      ∃ loaded, TrustedArtifact parseChecks .server lane (artifacts .server lane) loaded ∧
        loaded.results = results := by
  simp only [← @loadConformanceArtifact_some_iff _ paths, completedResults]
  split
  next loaded hloaded => simp [hloaded]
  next hnone =>
    refine iff_of_false (by simp) ?_
    rintro ⟨loaded, hloaded, _⟩
    exact hnone loaded hloaded

theorem loadCompletedConformanceResults_ok_iff {parseChecks : ChecksParser}
    {paths : ConformancePaths} {artifacts : EntryArtifacts} {lanes : List SemanticLane}
    {results : LaneResults} :
    loadCompletedConformanceResults parseChecks paths artifacts lanes = .ok results ↔
      (∀ lane ∈ conformanceEvidenceLanes lanes, ∃ loaded,
        loadConformanceArtifact parseChecks paths artifacts .server lane = .ok loaded) ∧
      results = fun lane => if lane ∈ conformanceEvidenceLanes lanes then
        completedResults parseChecks paths artifacts lane else none := by
  have horElse : ∀ found : Option ConformanceResults, (found.orElse fun _ => none) = found := by
    rintro (_ | _) <;> rfl
  rw [loadCompletedConformanceResults, foldlM_loadCompletedLane_ok_iff]
  simp only [horElse]

/-- Selected results are loaded exactly when every lane of the evidence is trusted. -/
theorem loadSelectedConformanceResults_ok_iff {parseChecks : ChecksParser}
    {paths : ConformancePaths} {artifacts : EntryArtifacts} {lanes : List SemanticLane}
    {results : LaneResults} :
    loadSelectedConformanceResults parseChecks paths artifacts lanes = .ok results ↔
      (∀ lane ∈ conformanceEvidenceLanes lanes, ∃ loaded,
        TrustedArtifact parseChecks .server lane (artifacts .server lane) loaded ∧
          results lane = some loaded.results) ∧
      ∀ lane ∉ conformanceEvidenceLanes lanes, results lane = none := by
  simp only [loadSelectedConformanceResults, except_bind_eq_ok,
    loadCompletedConformanceResults_ok_iff]
  constructor
  · rintro ⟨loadedResults, ⟨_, heq⟩, hpresent⟩
    split at hpresent
    · contradiction
    next hfind =>
      cases hpresent
      subst heq
      refine ⟨fun lane hlane => ?_, fun lane hlane => if_neg hlane⟩
      -- No lane of the evidence was reported missing, so each of them has results.
      have hsome := List.find?_eq_none.mp hfind lane hlane
      simp only [if_pos hlane, Bool.not_eq_true, Option.isNone_eq_false_iff,
        Option.isSome_iff_exists] at hsome ⊢
      obtain ⟨laneResults, hcompleted⟩ := hsome
      obtain ⟨loaded, htrusted, rfl⟩ := completedResults_eq_some_iff.mp hcompleted
      exact ⟨loaded, htrusted, hcompleted⟩
  · rintro ⟨hevidence, hother⟩
    refine ⟨results, ⟨fun lane hlane => ?_, funext fun lane => ?_⟩, ?_⟩
    · obtain ⟨loaded, htrusted, _⟩ := hevidence lane hlane
      exact ⟨some loaded, loadConformanceArtifact_some_iff.mpr htrusted⟩
    · split
      next hlane =>
        obtain ⟨loaded, htrusted, heq⟩ := hevidence lane hlane
        rw [heq, completedResults_eq_some_iff.mpr ⟨loaded, htrusted, rfl⟩]
      next hlane => exact hother lane hlane
    · have hfind : (conformanceEvidenceLanes lanes).find? (fun lane => (results lane).isNone) =
          none := by
        rw [List.find?_eq_none]
        intro lane hlane
        obtain ⟨loaded, _, heq⟩ := hevidence lane hlane
        simp [heq]
      rw [hfind]
      rfl

theorem loadCompletedClientConformanceResults_ok_iff {parseChecks : ChecksParser}
    {paths : ConformancePaths} {artifacts : EntryArtifacts} {results : LaneResults} :
    loadCompletedClientConformanceResults parseChecks paths artifacts = .ok results ↔
      (loadConformanceArtifact parseChecks paths artifacts .client .externalDataPlane = .ok none ∧
        results = fun _ => none) ∨
      ∃ loaded, TrustedArtifact parseChecks .client .externalDataPlane
          (artifacts .client .externalDataPlane) loaded ∧
        results = fun lane => if lane = .externalDataPlane then some loaded.results else none := by
  simp only [← @loadConformanceArtifact_some_iff _ paths, loadCompletedClientConformanceResults]
  cases loadConformanceArtifact parseChecks paths artifacts .client .externalDataPlane with
  | error failure => simp [bind, Except.bind]
  | ok loaded => cases loaded <;> simp [bind, Except.bind, pure, Except.pure, eq_comm]

end CfIntegration.Runtime
