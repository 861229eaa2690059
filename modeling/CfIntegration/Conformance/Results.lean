import Mathlib.Data.String.Basic
import CfIntegration.Foundation.OrderedSet
import CfIntegration.Mcp.JsonText

/-! # Official conformance results

The typed results of one official run, the pinned scenario catalogs, and the
check that a result set covers its catalog exactly. A result set is trusted only
when every catalogued scenario is present with at least one check.
-/

namespace CfIntegration.Conformance

def officialConformancePackage : String := "@modelcontextprotocol/conformance@0.2.0-alpha.12"
def officialConformanceRepository : String := "https://github.com/modelcontextprotocol/conformance"
def officialConformanceRevision : String := "f44482ba17df816d3176962a11cdf36aec9bda00"
def officialConformanceServerId : String := "3f33286667d34b65a31c3bafd30e4c21"
def defaultMcpSpecVersion : String := "2026-07-28"
def stableMcpSpecVersion : String := "2025-11-25"
def legacyMcpSpecVersion : String := "2025-06-18"
def defaultConformanceSuite : String := "all"

/-- Client scenarios implemented by the external dataplane conformance driver. -/
def defaultClientConformanceScenarios : List String :=
  ["tools_call", "request-metadata", "http-standard-headers", "http-custom-headers"]

inductive ConformanceDirection where
  | server
  | client
  deriving DecidableEq, Repr

def ConformanceDirection.label : ConformanceDirection → String
  | .server => "server"
  | .client => "client"

/-- Protocol behavior exposed by the pinned upstream fixture. -/
inductive ConformanceServerEra where
  | dual
  | legacy
  | modern
  deriving DecidableEq, Repr

def ConformanceServerEra.label : ConformanceServerEra → String
  | .dual => "dual"
  | .legacy => "legacy"
  | .modern => "modern"

/-- The name of the variant, as it is shown for debugging. -/
def ConformanceServerEra.debug : ConformanceServerEra → String
  | .dual => "Dual"
  | .legacy => "Legacy"
  | .modern => "Modern"

/-- Parse a stable artifact path component. -/
def ConformanceServerEra.fromLabel : String → Option ConformanceServerEra
  | "dual" => some .dual
  | "legacy" => some .legacy
  | "modern" => some .modern
  | _ => none

/-- A label is read as the era that it labels. -/
theorem ConformanceServerEra.fromLabel_eq_some_iff {value : String} {era : ConformanceServerEra} :
    fromLabel value = some era ↔ value = era.label := by
  constructor
  · unfold fromLabel
    split <;> intro hera <;> cases hera <;> rfl
  · intro hvalue
    subst hvalue
    cases era <;> rfl

theorem ConformanceServerEra.label_injective : Function.Injective label := by
  intro first second hlabel
  apply Option.some.inj
  rw [← fromLabel_eq_some_iff.mpr rfl, hlabel]
  exact fromLabel_eq_some_iff.mpr rfl

/-- Protocol revisions the fixture accepts in an era, oldest first. -/
def ConformanceServerEra.protocolVersions : ConformanceServerEra → List String
  | .dual => ["2024-11-05", "2025-03-26", legacyMcpSpecVersion, stableMcpSpecVersion,
      defaultMcpSpecVersion]
  | .legacy => ["2024-11-05", "2025-03-26", legacyMcpSpecVersion, stableMcpSpecVersion]
  | .modern => [defaultMcpSpecVersion]

def ConformanceServerEra.protocolVersionsLabel (era : ConformanceServerEra) : String :=
  ", ".intercalate era.protocolVersions

/-- Endpoint topology exercised by one official server run. -/
inductive SemanticLane where
  | fixtureDirect
  | builtInDataPlane
  | externalDataPlane
  deriving DecidableEq, Repr

namespace SemanticLane

def label : SemanticLane → String
  | .fixtureDirect => "fixture direct"
  | .builtInDataPlane => "builtin"
  | .externalDataPlane => "external"

/-- Stable artifact and baseline path component. -/
def slug : SemanticLane → String
  | .fixtureDirect => "fixture-direct"
  | .builtInDataPlane => "built-in-data-plane"
  | .externalDataPlane => "external-data-plane"

/-- Whether the lane reaches the fixture through a gateway. -/
def isRouted : SemanticLane → Bool
  | .fixtureDirect => false
  | .builtInDataPlane | .externalDataPlane => true

end SemanticLane

/-- The semantic lanes in their stable reporting order. -/
def allConformanceLanes : List SemanticLane :=
  [.fixtureDirect, .builtInDataPlane, .externalDataPlane]

/-- No lane is left out. -/
theorem mem_allConformanceLanes (lane : SemanticLane) : lane ∈ allConformanceLanes := by
  cases lane <;> decide

structure ConformanceFixtureMetadata where
  repository : String
  revision : String
  serverId : String
  deriving DecidableEq, Repr

/-- Reproducibility metadata stored beside one official result set. -/
structure ConformanceRunMetadata where
  oracle : String
  target : String
  direction : ConformanceDirection
  clientVersion : String
  serverEra : ConformanceServerEra
  suite : String
  fixture : ConformanceFixtureMetadata
  deriving DecidableEq, Repr

/-- The provenance the tool records for every run it starts. -/
def officialFixture : ConformanceFixtureMetadata where
  repository := officialConformanceRepository
  revision := officialConformanceRevision
  serverId := officialConformanceServerId

def isTrustedOfficialFixture (fixture : ConformanceFixtureMetadata) : Bool :=
  fixture.repository == officialConformanceRepository
    && fixture.revision == officialConformanceRevision
    && fixture.serverId == officialConformanceServerId

/-- Only the official fixture is trusted. -/
theorem isTrustedOfficialFixture_iff {fixture : ConformanceFixtureMetadata} :
    isTrustedOfficialFixture fixture = true ↔ fixture = officialFixture := by
  rcases fixture with ⟨repository, revision, serverId⟩
  simp [isTrustedOfficialFixture, officialFixture, and_assoc]

/-- Official check status; statuses of a newer package are kept verbatim. -/
inductive CheckStatus where
  | success
  | failure
  | warning
  | skipped
  | info
  | other (status : String)
  deriving DecidableEq, Repr

/-- An official specification reference. Unknown fields are retained verbatim. -/
structure SpecReference where
  id : String
  url : Option String
  extensions : OrderedMap String Mcp.JsonValue
  deriving DecidableEq

structure ConformanceCheck where
  id : String
  name : Option String
  status : CheckStatus
  specReferences : List SpecReference
  errorMessage : Option String
  deriving DecidableEq

/-- Result of one scenario; `source` is its path below the result root. -/
structure ConformanceScenarioResult (ν : Type := String) where
  scenario : String
  checks : List ConformanceCheck
  source : List ν
  deriving DecidableEq

structure ConformanceResults (ν : Type := String) where
  scenarios : OrderedMap String (ConformanceScenarioResult ν)

def serverScenarios20250618 : List String :=
  ["server-initialize", "server-session-lifecycle", "logging-set-level", "ping",
    "completion-complete", "tools-list", "tools-call-simple-text", "tools-call-image",
    "tools-call-audio", "tools-call-embedded-resource", "tools-call-mixed-content",
    "tools-call-with-logging", "tools-call-error", "tools-call-with-progress",
    "tools-call-sampling", "tools-call-elicitation", "resources-list", "resources-read-text",
    "resources-read-binary", "resources-templates-read", "resources-subscribe",
    "resources-unsubscribe", "prompts-list", "prompts-get-simple", "prompts-get-with-args",
    "prompts-get-embedded-resource", "prompts-get-with-image"]

def serverActiveAdditions20251125 : List String :=
  ["elicitation-sep1034-defaults", "server-sse-multiple-streams", "elicitation-sep1330-enums",
    "dns-rebinding-protection"]

def serverPending20251125 : List String := ["json-schema-2020-12", "server-sse-polling"]

def serverActive20260728 : List String :=
  ["completion-complete", "dns-rebinding-protection", "prompts-get-embedded-resource",
    "prompts-get-simple", "prompts-get-with-args", "prompts-get-with-image", "prompts-list",
    "resources-list", "resources-read-binary", "resources-read-text", "resources-templates-read",
    "server-sse-multiple-streams", "tools-call-audio", "tools-call-embedded-resource",
    "tools-call-error", "tools-call-image", "tools-call-mixed-content", "tools-call-simple-text",
    "tools-call-with-progress", "tools-list"]

def serverAllAdditions20260728 : List String :=
  ["caching", "http-custom-header-server-validation", "http-header-validation",
    "input-required-result-basic-elicitation", "input-required-result-basic-list-roots",
    "input-required-result-basic-sampling", "input-required-result-capability-check",
    "input-required-result-ignore-extra-params", "input-required-result-missing-input-response",
    "input-required-result-multi-round", "input-required-result-multiple-input-requests",
    "input-required-result-non-tool-request", "input-required-result-request-state",
    "input-required-result-result-type", "input-required-result-tampered-state",
    "input-required-result-unsupported-methods", "input-required-result-validate-input",
    "json-schema-2020-12", "sep-2164-resource-not-found", "server-stateless"]

/-- The exact pinned server scenario set for one supported suite and revision. -/
def expectedServerScenarios (suite specVersion : String) : Except String (OrderedSet String) :=
  if !(suite == "active" || suite == "all") then
    .error s!"unsupported official server suite {suite.quote}; expected active or all"
  else if specVersion = legacyMcpSpecVersion then
    .ok (OrderedSet.ofList serverScenarios20250618)
  else if specVersion = stableMcpSpecVersion then
    .ok (OrderedSet.ofList (serverScenarios20250618 ++ serverActiveAdditions20251125 ++
      if suite == "all" then serverPending20251125 else []))
  else if specVersion = defaultMcpSpecVersion then
    .ok (OrderedSet.ofList (serverActive20260728 ++
      if suite == "all" then serverAllAdditions20260728 else []))
  else
    .error s!"no verified {officialConformancePackage} server scenario catalog for specification {
      specVersion.quote}"

/-- The scoped client scenario set supported by the gateway driver. -/
def expectedClientScenarios (specVersion : String) : Except String (OrderedSet String) :=
  if specVersion ≠ defaultMcpSpecVersion then
    .error s!"external dataplane client conformance supports specification {
      defaultMcpSpecVersion.quote}, not {specVersion.quote}"
  else
    .ok (OrderedSet.ofList defaultClientConformanceScenarios)

/-- A list as it is shown for debugging. -/
def debugList (items : List String) : String := "[" ++ ", ".intercalate items ++ "]"

/-- Parsed results must cover the expected set exactly, and no scenario may be empty. -/
def validateScenarioSet (results : ConformanceResults) (expected : OrderedSet String)
    (selection specVersion : String) : Except String Unit :=
  let actual := results.scenarios.keys
  let missing := expected.difference actual
  let unexpected := actual.difference expected
  let emptyChecks := (results.scenarios.entries.filter (·.2.checks.isEmpty)).map Prod.fst
  if !missing.isEmpty || !unexpected.isEmpty || !emptyChecks.isEmpty then
    .error s!"official conformance scenario set is incomplete for {selection} and specification {
      specVersion.quote}; missing={debugList (missing.elems.map String.quote)}; unexpected={
      debugList (unexpected.elems.map String.quote)}; empty_checks={
      debugList (emptyChecks.map String.quote)}"
  else
    .ok ()

def validateServerScenarioSet (results : ConformanceResults) (suite specVersion : String) :
    Except String Unit := do
  let expected ← expectedServerScenarios suite specVersion
  validateScenarioSet results expected s!"server suite {suite.quote}" specVersion

def validateClientScenarioSet (results : ConformanceResults) (specVersion : String) :
    Except String Unit := do
  let expected ← expectedClientScenarios specVersion
  validateScenarioSet results expected "scoped client suite" specVersion

/-- Exact coverage of a catalog, every scenario having produced a check. -/
structure CoversExactly (results : ConformanceResults) (expected : OrderedSet String) : Prop where
  scenarios : results.scenarios.keys = expected
  checked : ∀ entry ∈ results.scenarios.entries, entry.2.checks ≠ []

/-- A set of results is valid if it covers exactly the scenarios of the catalog. -/
theorem validateScenarioSet_ok_iff {results : ConformanceResults} {expected : OrderedSet String}
    {selection specVersion : String} {done : Unit} :
    validateScenarioSet results expected selection specVersion = .ok done ↔
      CoversExactly results expected := by
  unfold validateScenarioSet
  simp only [Bool.or_eq_true, Bool.not_eq_eq_eq_not, Bool.not_true]
  constructor
  · intro hok
    split at hok
    · cases hok
    next hcomplete =>
      simp only [not_or, Bool.not_eq_false] at hcomplete
      obtain ⟨⟨hmissing, hunexpected⟩, hempty⟩ := hcomplete
      refine ⟨OrderedSet.eq_of_difference_isEmpty hunexpected hmissing, ?_⟩
      intro entry hentry hnil
      have hnone := List.map_eq_nil_iff.mp (List.isEmpty_iff.mp hempty)
      exact List.filter_eq_nil_iff.mp hnone entry hentry (by simp [hnil])
  · rintro ⟨rfl, hchecked⟩
    have hnone : results.scenarios.entries.filter (·.2.checks.isEmpty) = [] :=
      List.filter_eq_nil_iff.mpr fun entry hentry => by simpa using hchecked entry hentry
    simp [hnone]

/-- Server results are valid if they cover the catalog of the suite and specification. -/
theorem validateServerScenarioSet_ok_iff {results : ConformanceResults}
    {suite specVersion : String} {done : Unit} :
    validateServerScenarioSet results suite specVersion = .ok done ↔
      ∃ expected, expectedServerScenarios suite specVersion = .ok expected ∧
        CoversExactly results expected := by
  unfold validateServerScenarioSet
  cases expectedServerScenarios suite specVersion with
  | error message => simp [bind, Except.bind]
  | ok expected => simpa [bind, Except.bind] using validateScenarioSet_ok_iff

/-- Client results are valid if they cover the catalog of the specification. -/
theorem validateClientScenarioSet_ok_iff {results : ConformanceResults} {specVersion : String}
    {done : Unit} :
    validateClientScenarioSet results specVersion = .ok done ↔
      ∃ expected, expectedClientScenarios specVersion = .ok expected ∧
        CoversExactly results expected := by
  unfold validateClientScenarioSet
  cases expectedClientScenarios specVersion with
  | error message => simp [bind, Except.bind]
  | ok expected => simpa [bind, Except.bind] using validateScenarioSet_ok_iff

end CfIntegration.Conformance
