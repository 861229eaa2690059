import Mathlib.Data.List.Nodup

/-! # Freshness of a running stack

A stack counts as current when its services run, its setup services have completed, and
images and revisions are the expected ones. The first fact that fails is reported.
-/

namespace CfIntegration.Infrastructure.Stack

/-- Captured runtime state for one Compose service. -/
structure ServiceSnapshot where
  running : Bool
  completedSuccessfully : Bool
  configuredImage : Option String
  runningImageMatchesConfigured : Bool
  imageRevision : Option String
  deriving DecidableEq

/-- Facts used to decide whether a running dataplane stack is current. -/
structure FreshnessSnapshot where
  services : String → Option ServiceSnapshot
  controlplaneCheckoutRevision : Option String
  dataplaneCheckoutRevision : Option String
  controlplaneImagePrebuilt : Bool
  dataplaneSourceEnabled : Bool
  expectedControlplaneImage : String
  expectedDataplaneImage : String
  expectedFastTimeImage : String

inductive StackFreshness where
  | current
  /-- The first failure. -/
  | stale (message : String)
  deriving DecidableEq

def runningServices : List String :=
  ["gateway", "auth", "dataplane", "nginx", "postgres", "pgbouncer", "redis", "fast_time_server"]

def setupServices : List String := ["migration", "register_fast_time"]

namespace FreshnessSnapshot

variable (snapshot : FreshnessSnapshot)

def isRunning (service : String) : Bool :=
  (snapshot.services service).any ServiceSnapshot.running

def isCompleted (service : String) : Bool :=
  (snapshot.services service).any ServiceSnapshot.completedSuccessfully

/-- The services whose images are compared, the expected images and their labels. -/
def expectedImages : List (String × String × String) :=
  [("gateway", snapshot.expectedControlplaneImage, "cf-controlplane"),
    ("dataplane", snapshot.expectedDataplaneImage, "cf-dataplane"),
    ("fast_time_server", snapshot.expectedFastTimeImage, "fast_time_server")]

def imageMatches (service expected : String) : Bool :=
  (snapshot.services service).any fun found =>
    found.configuredImage = some expected && found.runningImageMatchesConfigured

def serviceRevisionMatches (service : String) (checkoutRevision : Option String) : Bool :=
  match (snapshot.services service).bind ServiceSnapshot.imageRevision, checkoutRevision with
  | some image, some checkout => checkout ≠ "" && image = checkout
  | _, _ => false

def evaluate : StackFreshness :=
  match runningServices.find? (!snapshot.isRunning ·) with
  | some service => .stale s!"service is not running: {service}"
  | none => match setupServices.find? (!snapshot.isCompleted ·) with
    | some service => .stale s!"setup service did not complete successfully: {service}"
    | none => match snapshot.expectedImages.find? fun (service, expected, _) =>
        !snapshot.imageMatches service expected with
      | some (_, _, label) => .stale s!"{label} image differs"
      | none =>
          if !snapshot.controlplaneImagePrebuilt && !snapshot.serviceRevisionMatches "gateway"
              snapshot.controlplaneCheckoutRevision then
            .stale "cf-controlplane branch revision differs"
          else if snapshot.dataplaneSourceEnabled && !snapshot.serviceRevisionMatches "dataplane"
              snapshot.dataplaneCheckoutRevision then
            .stale "cf-dataplane branch revision differs"
          else .current

end FreshnessSnapshot

/-- All that is looked at before a stack counts as current. -/
structure IsCurrent (snapshot : FreshnessSnapshot) : Prop where
  running : ∀ service ∈ runningServices, snapshot.isRunning service = true
  completed : ∀ service ∈ setupServices, snapshot.isCompleted service = true
  images : ∀ expected ∈ snapshot.expectedImages,
    snapshot.imageMatches expected.1 expected.2.1 = true
  controlplane : snapshot.controlplaneImagePrebuilt = true ∨
    snapshot.serviceRevisionMatches "gateway" snapshot.controlplaneCheckoutRevision = true
  dataplane : snapshot.dataplaneSourceEnabled = false ∨
    snapshot.serviceRevisionMatches "dataplane" snapshot.dataplaneCheckoutRevision = true

theorem evaluate_current_iff (snapshot : FreshnessSnapshot) :
    snapshot.evaluate = .current ↔ IsCurrent snapshot := by
  unfold FreshnessSnapshot.evaluate
  constructor
  · intro hcurrent
    split at hcurrent
    next => cases hcurrent
    next hrunning =>
      split at hcurrent
      next => cases hcurrent
      next hcompleted =>
        split at hcurrent
        next => cases hcurrent
        next himages =>
          split_ifs at hcurrent with hcontrolplane hdataplane
          constructor
          · simpa using hrunning
          · simpa using hcompleted
          · simpa using himages
          · simpa [or_iff_not_imp_left] using hcontrolplane
          · simpa [or_iff_not_imp_left] using hdataplane
  · intro hcurrent
    have hrunning : runningServices.find? (!snapshot.isRunning ·) = none := by
      simpa using hcurrent.running
    have hcompleted : setupServices.find? (!snapshot.isCompleted ·) = none := by
      simpa using hcurrent.completed
    have himages : (snapshot.expectedImages.find? fun (service, expected, _) =>
        !snapshot.imageMatches service expected) = none := by
      simpa using hcurrent.images
    have hcontrolplane := hcurrent.controlplane
    have hdataplane := hcurrent.dataplane
    rw [hrunning, hcompleted, himages]
    dsimp only
    rw [if_neg, if_neg]
    · simpa [or_iff_not_imp_left] using hdataplane
    · simpa [or_iff_not_imp_left] using hcontrolplane

end CfIntegration.Infrastructure.Stack
