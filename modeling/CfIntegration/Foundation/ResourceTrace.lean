import Mathlib.Data.List.Basic
import Mathlib.Tactic.Common

/-! # Resources along a trace

A trace of events, some of which acquire or release a resource. A segment takes
the set of held resources to another one when every resource's acquisitions and
releases alternate; such segments compose. In a trace that starts and ends with
nothing held, every acquisition is released exactly once.
-/

namespace CfIntegration

universe u v

inductive ResourceUse where
  | acquire
  | release
  deriving DecidableEq, Repr

/-- The uses of one resource alternate, from held or not held to held or not held. -/
inductive Alternating : Bool → List ResourceUse → Bool → Prop where
  | nil (held : Bool) : Alternating held [] held
  | acquire {rest : List ResourceUse} {held : Bool} :
      Alternating true rest held → Alternating false (.acquire :: rest) held
  | release {rest : List ResourceUse} {held : Bool} :
      Alternating false rest held → Alternating true (.release :: rest) held

namespace Alternating

theorem append {first middle last : Bool} {left right : List ResourceUse}
    (hleft : Alternating first left middle) (hright : Alternating middle right last) :
    Alternating first (left ++ right) last := by
  induction hleft with
  | nil => exact hright
  | acquire _ ih => exact (ih hright).acquire
  | release _ ih => exact (ih hright).release

/-- Alternating uses can be split anywhere. -/
theorem of_append {first last : Bool} {left right : List ResourceUse}
    (huses : Alternating first (left ++ right) last) :
    ∃ middle, Alternating first left middle ∧ Alternating middle right last := by
  induction left generalizing first with
  | nil => exact ⟨first, nil first, huses⟩
  | cons use rest ih =>
      cases huses with
      | acquire hrest =>
          obtain ⟨middle, hleft, hright⟩ := ih hrest
          exact ⟨middle, hleft.acquire, hright⟩
      | release hrest =>
          obtain ⟨middle, hleft, hright⟩ := ih hrest
          exact ⟨middle, hleft.release, hright⟩

/-- A resource that is not held is not released first. -/
theorem head?_ne_release {last : Bool} {uses : List ResourceUse}
    (huses : Alternating false uses last) : uses.head? ≠ some .release := by
  cases huses <;> simp

/-- Where nothing is held at the end, exactly one release follows an acquisition
before the next acquisition. -/
theorem release_after {first : Bool} {before after : List ResourceUse}
    (huses : Alternating first (before ++ .acquire :: after) false) :
    ∃ later, after = .release :: later ∧ later.head? ≠ some .release := by
  obtain ⟨_, _, hacquire⟩ := huses.of_append
  cases hacquire with
  | acquire hafter =>
      cases hafter with
      | release hlater => exact ⟨_, rfl, hlater.head?_ne_release⟩

end Alternating

section Trace

variable {Event : Type u} {Resource : Type v} [DecidableEq Resource]
  (classify : Event → Option (Resource × ResourceUse))

/-- The use an event makes of a resource, if any. -/
def useOf (resource : Resource) (event : Event) : Option ResourceUse :=
  (classify event).bind fun (used, use) => if used = resource then some use else none

/-- The uses a trace makes of one resource, in order. -/
def usesOf (resource : Resource) (trace : List Event) : List ResourceUse :=
  trace.filterMap (useOf classify resource)

@[simp] theorem usesOf_nil (resource : Resource) : usesOf classify resource [] = [] := rfl

/-- The uses in two parts of a trace follow each other. -/
@[simp] theorem usesOf_append (resource : Resource) (left right : List Event) :
    usesOf classify resource (left ++ right) =
      usesOf classify resource left ++ usesOf classify resource right :=
  List.filterMap_append

@[simp] theorem usesOf_cons (resource : Resource) (event : Event) (rest : List Event) :
    usesOf classify resource (event :: rest) =
      (useOf classify resource event).toList ++ usesOf classify resource rest := by
  unfold usesOf
  rw [List.filterMap_cons]
  cases useOf classify resource event <;> rfl

/-- A segment of a trace takes the held resources to other held resources. -/
def Transfers (held : Resource → Bool) (trace : List Event) (held' : Resource → Bool) : Prop :=
  ∀ resource, Alternating (held resource) (usesOf classify resource trace) (held' resource)

/-- The listed resources are held. -/
def holding (resources : List Resource) : Resource → Bool := fun resource => resource ∈ resources

/-- Every acquisition is followed by exactly one release of the same resource
before that resource is acquired again or the trace ends. -/
def ReleasedOnce (trace : List Event) : Prop :=
  ∀ resource before event after, trace = before ++ event :: after →
    classify event = some (resource, .acquire) →
    ∃ later, usesOf classify resource after = .release :: later ∧ later.head? ≠ some .release

variable {classify}

namespace Transfers

variable {held middle held' : Resource → Bool} {left right : List Event}

theorem nil (held : Resource → Bool) : Transfers classify held [] held :=
  fun resource => Alternating.nil (held resource)

theorem append (hleft : Transfers classify held left middle)
    (hright : Transfers classify middle right held') :
    Transfers classify held (left ++ right) held' := fun resource => by
  rw [usesOf_append]
  exact (hleft resource).append (hright resource)

/-- An event without a resource transfers nothing. -/
theorem neutral {event : Event} (hevent : classify event = none) :
    Transfers classify held [event] held := fun resource => by
  have hnone : useOf classify resource event = none := by simp [useOf, hevent]
  simpa [hnone] using Alternating.nil (held resource)

/-- Events that use no resource do not matter. -/
theorem append_neutral (hleft : Transfers classify held left held')
    (hright : ∀ event ∈ right, classify event = none) :
    Transfers classify held (left ++ right) held' := fun resource => by
  have hnone : usesOf classify resource right = [] :=
    List.filterMap_eq_nil_iff.mpr fun event hevent => by simp [useOf, hright event hevent]
  rw [usesOf_append, hnone, List.append_nil]
  exact hleft resource

/-- An acquired resource is held from then on. -/
theorem acquire {resource : Resource} {resources : List Resource} {event : Event}
    (hevent : classify event = some (resource, .acquire)) (hfresh : resource ∉ resources) :
    Transfers classify (holding resources) [event] (holding (resource :: resources)) := by
  intro other
  by_cases hother : other = resource
  · subst hother
    simpa [holding, hfresh, useOf, hevent] using (Alternating.nil true).acquire
  · simpa [holding, hother, useOf, hevent, Ne.symm hother] using Alternating.nil _

/-- A released resource is no longer held. -/
theorem release {resource : Resource} {resources : List Resource} {event : Event}
    (hevent : classify event = some (resource, .release)) (hfresh : resource ∉ resources) :
    Transfers classify (holding (resource :: resources)) [event] (holding resources) := by
  intro other
  by_cases hother : other = resource
  · subst hother
    simpa [holding, hfresh, useOf, hevent] using (Alternating.nil false).release
  · simpa [holding, hother, useOf, hevent, Ne.symm hother] using Alternating.nil _

end Transfers

/-- Releases of what an earlier run may have left come before everything else. -/
theorem ReleasedOnce.of_transfers {trace : List Event}
    (htransfers : ∀ resource, ∃ leftovers uses,
      usesOf classify resource trace = List.replicate leftovers .release ++ uses ∧
        Alternating false uses false) :
    ReleasedOnce classify trace := by
  rintro resource before event after rfl hevent
  obtain ⟨leftovers, uses, huses, halternating⟩ := htransfers resource
  have huse : useOf classify resource event = some .acquire := by simp [useOf, hevent]
  rw [usesOf_append, usesOf_cons, huse, Option.toList_some, List.singleton_append] at huses
  generalize usesOf classify resource before = earlier at huses
  induction leftovers generalizing earlier with
  | zero =>
      rw [List.replicate_zero, List.nil_append] at huses
      rw [← huses] at halternating
      exact halternating.release_after
  | succ leftovers ih =>
      rw [List.replicate_succ] at huses
      cases earlier with
      | nil => simp at huses
      | cons first earlier =>
          simp only [List.cons_append, List.cons.injEq] at huses
          exact ih earlier huses.2

end Trace

/-- The polls of a future: pending any number of times, then ready at most once,
and never again. -/
def PolledUntil (ready : Bool) (polls : List Bool) : Prop :=
  ∃ pending, polls = List.replicate pending false ++ if ready then [true] else []

namespace PolledUntil

theorem nil : PolledUntil false [] := ⟨0, rfl⟩

/-- One more poll after polls that were not ready. -/
theorem poll {polls : List Bool} (hpolls : PolledUntil false polls) (ready : Bool) :
    PolledUntil ready (polls ++ [ready]) := by
  obtain ⟨pending, rfl⟩ := hpolls
  cases ready with
  | false => exact ⟨pending + 1, by simp [List.replicate_succ']⟩
  | true => exact ⟨pending, by simp⟩

theorem append {left right : List Bool} {ready : Bool} (hleft : PolledUntil false left)
    (hright : PolledUntil ready right) : PolledUntil ready (left ++ right) := by
  obtain ⟨pending, rfl⟩ := hleft
  obtain ⟨more, rfl⟩ := hright
  rw [if_neg Bool.false_ne_true, List.append_nil]
  refine ⟨pending + more, ?_⟩
  rw [List.replicate_add, List.append_assoc]

/-- A poll was ready exactly when the last one was. -/
theorem mem_true {polls : List Bool} {ready : Bool} (hpolls : PolledUntil ready polls) :
    true ∈ polls ↔ ready = true := by
  obtain ⟨pending, rfl⟩ := hpolls
  cases ready <;> simp

/-- No poll follows the one that was ready. -/
theorem eq_nil_of_ready {before after : List Bool} {ready : Bool}
    (hpolls : PolledUntil ready (before ++ true :: after)) : after = [] := by
  obtain ⟨pending, hpending⟩ := hpolls
  induction before generalizing pending with
  | nil =>
      cases pending with
      | zero => cases ready <;> simp_all
      | succ pending => simp [List.replicate_succ] at hpending
  | cons first before ih =>
      cases pending with
      | zero => cases ready <;> simp at hpending
      | succ pending =>
          simp only [List.replicate_succ, List.cons_append, List.cons.injEq] at hpending
          exact ih pending hpending.2

end PolledUntil

end CfIntegration
