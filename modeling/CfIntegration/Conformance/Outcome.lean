import Mathlib.Data.List.Infix
import CfIntegration.Conformance.Results

/-! # Scenario outcomes

The reduction of the official checks of one scenario to the outcome that tables and
reports show for it.
-/

namespace CfIntegration.Conformance

inductive ScenarioOutcome where
  | compliant
  | nonCompliant
  | fixtureFailure
  | notApplicable
  | ambiguous
  | missing
  deriving DecidableEq, Repr

/-- Messages with which the pinned fixture reports that it lacks something. -/
def exactMarkers : List String :=
  ["Tool not found: test_",
    "Tool 'json_schema_2020_12_tool' not found",
    "Prompt not found: test_",
    "Resource not found: test://",
    "Routing problem... wrong tool name",
    "Routing problem... wrong prompt name",
    "Routing problem... wrong resource name",
    "Routing problem... wrong completion reference"]

def isMissingOfficialFixture (message : String) : Bool :=
  exactMarkers.any fun marker => decide (marker.toList <:+: message.toList)

namespace ConformanceScenarioResult

def failures (result : ConformanceScenarioResult) : List ConformanceCheck :=
  result.checks.filter (·.status = .failure)

/-- Some check has the status. -/
def has (result : ConformanceScenarioResult) (status : CheckStatus) : Bool :=
  result.checks.any (·.status = status)

def hasUnknown (result : ConformanceScenarioResult) : Bool :=
  result.checks.any fun check => match check.status with
    | .other _ => true
    | _ => false

/-- Reduce official check statuses into a scenario-level comparison outcome. -/
def outcome (result : ConformanceScenarioResult) : ScenarioOutcome :=
  if !result.failures.isEmpty &&
      result.failures.all (fun check => check.errorMessage.any isMissingOfficialFixture) then
    .fixtureFailure
  else if !result.failures.isEmpty then .nonCompliant
  else if result.hasUnknown then .ambiguous
  else if result.has .success || result.has .warning then .compliant
  else if result.has .skipped || result.has .info then .notApplicable
  else .ambiguous

/-- Fixture-shaped failures count as compliance failures. -/
def gatedOutcome (result : ConformanceScenarioResult) : ScenarioOutcome :=
  match result.outcome with
  | .fixtureFailure => .nonCompliant
  | outcome => outcome

/-- A scenario without failures has no failed check. -/
theorem failures_isEmpty_iff {result : ConformanceScenarioResult} :
    result.failures.isEmpty = true ↔ ∀ check ∈ result.checks, check.status ≠ .failure := by
  simp [failures]

/-- The gate never blames the fixture alone. -/
theorem gatedOutcome_ne_fixtureFailure (result : ConformanceScenarioResult) :
    result.gatedOutcome ≠ .fixtureFailure := by
  unfold gatedOutcome
  split
  · nofun
  next hother => exact hother

/-- A scenario is gated as non-compliant exactly when one of its checks failed. -/
theorem gatedOutcome_eq_nonCompliant_iff {result : ConformanceScenarioResult} :
    result.gatedOutcome = .nonCompliant ↔ ∃ check ∈ result.checks, check.status = .failure := by
  have hempty : result.failures.isEmpty = false ↔
      ∃ check ∈ result.checks, check.status = .failure := by
    rw [← Bool.not_eq_true, failures_isEmpty_iff]
    push Not
    rfl
  rw [← hempty]
  unfold gatedOutcome outcome
  cases result.failures.isEmpty with
  | false =>
      cases result.failures.all fun check => check.errorMessage.any isMissingOfficialFixture <;>
        simp
  | true =>
      cases result.hasUnknown <;> cases result.has .success || result.has .warning <;>
        cases result.has .skipped || result.has .info <;> simp

end ConformanceScenarioResult

end CfIntegration.Conformance
