import Mathlib.Data.List.Basic
import Mathlib.Order.Basic

/-! # Registries of created records

A registry holds the records that were created in it and not yet removed, each
under the serial number of its creation. Serials tell a record from another of
equal contents, so "existed before" is membership in the earlier registry.
-/

namespace CfIntegration

/-- A record under the serial number of its creation. -/
structure Registry.Entry (α : Type) where
  serial : Nat
  value : α
  deriving DecidableEq, Repr

structure Registry (α : Type) where
  entries : List (Registry.Entry α)
  next : Nat
  earlier : ∀ entry ∈ entries, entry.serial < next
  deriving Repr

namespace Registry

variable {α : Type}

def empty : Registry α := ⟨[], 0, by simp⟩

def values (registry : Registry α) : List α := registry.entries.map Entry.value

def create (registry : Registry α) (value : α) : Registry α where
  entries := registry.entries ++ [⟨registry.next, value⟩]
  next := registry.next + 1
  earlier entry hentry := by
    rcases List.mem_append.mp hentry with hentry | hentry
    · exact Nat.lt_succ_of_lt (registry.earlier entry hentry)
    · rw [List.mem_singleton.mp hentry]
      exact Nat.lt_succ_self _

/-- Remove every record that meets the condition. -/
def remove (registry : Registry α) (condition : α → Bool) : Registry α where
  entries := registry.entries.filter fun entry => !condition entry.value
  next := registry.next
  earlier entry hentry := registry.earlier entry (List.mem_of_mem_filter hentry)

/-- Give every record that meets the condition a new value. -/
def update (registry : Registry α) (condition : α → Bool) (value : α) : Registry α where
  entries := registry.entries.map fun entry =>
    if condition entry.value then { entry with value } else entry
  next := registry.next
  earlier entry hentry := by
    obtain ⟨former, hformer, rfl⟩ := List.mem_map.mp hentry
    have hserial := registry.earlier former hformer
    split
    next => exact hserial
    next => exact hserial

@[simp] theorem values_update (registry : Registry α) (condition : α → Bool) (value : α) :
    (registry.update condition value).values =
      registry.values.map fun former => if condition former then value else former := by
  simp only [values, update, List.map_map]
  refine List.map_congr_left fun entry _ => ?_
  simp only [Function.comp_apply]
  split
  next => rfl
  next => rfl

@[simp] theorem values_create (registry : Registry α) (value : α) :
    (registry.create value).values = registry.values ++ [value] := by
  simp [values, create]

@[simp] theorem values_remove (registry : Registry α) (condition : α → Bool) :
    (registry.remove condition).values = registry.values.filter fun value => !condition value := by
  simp only [values, remove, List.filter_map, Function.comp_def]

/-- A value is in the registry under some entry. -/
theorem mem_values {registry : Registry α} {value : α} :
    value ∈ registry.values ↔ ∃ entry ∈ registry.entries, entry.value = value := List.mem_map

/-- Whatever a registry holds beyond an earlier one meets the condition. -/
structure Extends (start : Registry α) (condition : α → Prop) (registry : Registry α) : Prop where
  next : start.next ≤ registry.next
  entries : ∀ entry ∈ registry.entries, entry ∈ start.entries ∨ condition entry.value

namespace Extends

variable {start registry : Registry α} {condition : α → Prop}

theorem refl (registry : Registry α) (condition : α → Prop) :
    Extends registry condition registry :=
  ⟨Nat.le_refl _, fun _ hentry => .inl hentry⟩

/-- The condition on what was added may be weakened. -/
theorem mono {weaker : α → Prop} (hextends : Extends start condition registry)
    (hweaker : ∀ value, condition value → weaker value) : Extends start weaker registry :=
  ⟨hextends.next, fun entry hentry => (hextends.entries entry hentry).imp_right (hweaker _)⟩

/-- Removing keeps an extension. -/
theorem remove (hextends : Extends start condition registry) (removed : α → Bool) :
    Extends start condition (registry.remove removed) :=
  ⟨hextends.next, fun entry hentry => hextends.entries entry (List.mem_of_mem_filter hentry)⟩

/-- Creating a value that meets the condition keeps an extension. -/
theorem create (hextends : Extends start condition registry) {value : α}
    (hvalue : condition value) : Extends start condition (registry.create value) := by
  refine ⟨Nat.le_succ_of_le hextends.next, fun entry hentry => ?_⟩
  rcases List.mem_append.mp hentry with hentry | hentry
  · exact hextends.entries entry hentry
  · rw [List.mem_singleton.mp hentry]
    exact .inr hvalue

/-- Nothing was added when no remaining record meets the condition. -/
theorem subset (hextends : Extends start condition registry)
    (hnone : ∀ value ∈ registry.values, ¬ condition value) :
    registry.entries ⊆ start.entries := fun entry hentry =>
  (hextends.entries entry hentry).resolve_right
    (hnone _ (mem_values.mpr ⟨entry, hentry, rfl⟩))

/-- A record under a later serial was not in the earlier registry. -/
theorem not_mem_of_le {entry : Entry α} (hserial : start.next ≤ entry.serial) :
    entry ∉ start.entries := fun hentry =>
  Nat.not_lt_of_ge hserial (start.earlier entry hentry)

end Extends

end Registry

end CfIntegration
