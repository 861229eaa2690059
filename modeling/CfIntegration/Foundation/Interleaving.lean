import Mathlib.Tactic.Common

/-! # Interleaved steps

Runs of a system whose events may or may not be possible in a state. What every
possible event preserves, alone or under a condition on the state it meets, holds
after every run.
-/

namespace CfIntegration.Interleaving

universe u v

variable {σ : Type u} {ε : Type v} {step : σ → ε → Option σ}

/-- The state after a sequence of events, if each was possible. -/
def run (step : σ → ε → Option σ) : σ → List ε → Option σ
  | state, [] => some state
  | state, event :: rest => (step state event).bind fun next => run step next rest

/-- A run takes its first event and then the rest. -/
theorem run_cons {start final : σ} {event : ε} {rest : List ε} :
    run step start (event :: rest) = some final ↔
      ∃ next, step start event = some next ∧ run step next rest = some final := by
  rw [run, Option.bind_eq_some_iff]

/-- Every event of a run meets a condition in the state it finds. -/
def Along (step : σ → ε → Option σ) (allowed : σ → ε → Prop) : σ → List ε → Prop
  | _, [] => True
  | state, event :: rest =>
      allowed state event ∧ ∀ next, step state event = some next → Along step allowed next rest

/-- What every allowed step keeps holds along a run whose steps are allowed. -/
theorem run_invariant_along {allowed : σ → ε → Prop} {invariant : σ → Prop}
    (hstep : ∀ state event next, allowed state event → invariant state →
      step state event = some next → invariant next)
    {start final : σ} {events : List ε} (halong : Along step allowed start events)
    (hstart : invariant start) (hrun : run step start events = some final) : invariant final := by
  induction events generalizing start with
  | nil =>
      cases hrun
      exact hstart
  | cons event rest ih =>
      obtain ⟨next, hnext, hrest⟩ := run_cons.mp hrun
      exact ih (halong.2 next hnext) (hstep start event next halong.1 hstart hnext) hrest

/-- What every step preserves holds after every run. -/
theorem run_invariant {invariant : σ → Prop}
    (hstep : ∀ state event next, invariant state → step state event = some next → invariant next)
    {start final : σ} {events : List ε} (hstart : invariant start)
    (hrun : run step start events = some final) : invariant final := by
  have halong : ∀ state events, Along step (fun _ _ => True) state events := by
    intro state events
    induction events generalizing state with
    | nil => trivial
    | cons event rest ih => exact ⟨trivial, fun next _ => ih next⟩
  exact run_invariant_along (fun state event next _ => hstep state event next) (halong _ _) hstart
    hrun

/-- What an event of the run establishes and every step preserves holds at its end. -/
theorem run_established {established : σ → Prop} {event : ε}
    (hestablishes : ∀ state next, step state event = some next → established next)
    (hkeeps : ∀ state other next, established state → step state other = some next →
      established next)
    {start final : σ} {events : List ε} (hmem : event ∈ events)
    (hrun : run step start events = some final) : established final := by
  induction events generalizing start with
  | nil => cases hmem
  | cons first rest ih =>
      obtain ⟨next, hnext, hrest⟩ := run_cons.mp hrun
      cases hmem with
      | head => exact run_invariant hkeeps (hestablishes start next hnext) hrest
      | tail _ hlater => exact ih hlater hrest

/-- Where a run first breaks a condition, in a state that an invariant of all runs describes. -/
theorem exists_breach {allowed : σ → ε → Prop} {invariant : σ → Prop}
    (hstep : ∀ state event next, invariant state → step state event = some next → invariant next)
    {start final : σ} {events : List ε} (halong : ¬ Along step allowed start events)
    (hstart : invariant start) (hrun : run step start events = some final) :
    ∃ state event next rest, invariant state ∧ ¬ allowed state event ∧
      step state event = some next ∧ run step next rest = some final := by
  induction events generalizing start with
  | nil => exact absurd trivial halong
  | cons event rest ih =>
      obtain ⟨next, hnext, hrest⟩ := run_cons.mp hrun
      by_cases hallowed : allowed start event
      · refine ih (fun hrestAlong => halong ⟨hallowed, fun other hother => ?_⟩)
          (hstep start event next hstart hnext) hrest
        rw [hnext, Option.some.injEq] at hother
        exact hother ▸ hrestAlong
      · exact ⟨start, event, next, rest, hstart, hallowed, hnext, hrest⟩

end CfIntegration.Interleaving
