import Mathlib.Data.List.Sort
import Mathlib.Order.Defs.LinearOrder

/-! # Sorting by a key and dropping repetitions

A list is sorted by a key of its items, and an item that equals its neighbour is dropped.
Where the key tells the items apart, each item is left once.
-/

namespace CfIntegration.KeyedSort

universe u v

variable {α : Type u} {κ : Type v} [DecidableEq α]

/-- Drop each item that equals the one before it. -/
def dedup : List α → List α
  | [] => []
  | item :: rest =>
      match dedup rest with
      | [] => [item]
      | next :: others => if item = next then next :: others else item :: next :: others

/-- Dropping neighbours that are equal loses no element. -/
@[simp] theorem mem_dedup {items : List α} {candidate : α} :
    candidate ∈ dedup items ↔ candidate ∈ items := by
  induction items with
  | nil => rfl
  | cons item rest ih =>
      rw [List.mem_cons, ← ih, dedup]
      split
      · next hnil => simp [hnil]
      · next next others hrest =>
        rw [hrest]
        split
        · next heq => simp [heq]
        · rw [List.mem_cons]

section

variable [LinearOrder κ] (key : α → κ)

def sort (items : List α) : List α := items.insertionSort fun left right => key left ≤ key right

def sortDedup (items : List α) : List α := dedup (sort key items)

/-- Sorting and dropping duplicates loses no element. -/
@[simp] theorem mem_sortDedup {items : List α} {candidate : α} :
    candidate ∈ sortDedup key items ↔ candidate ∈ items := by
  rw [sortDedup, mem_dedup, sort, (List.perm_insertionSort _ items).mem_iff]

omit [DecidableEq α] in
/-- A sorted list is in the order of its keys. -/
theorem pairwise_sort (items : List α) :
    (sort key items).Pairwise fun left right => key left ≤ key right := by
  have : Std.Total fun left right : α => key left ≤ key right := ⟨fun left right => le_total _ _⟩
  have : IsTrans α fun left right => key left ≤ key right := ⟨fun _ _ _ => le_trans⟩
  exact List.pairwise_insertionSort _ items

variable {key}

/-- Once equal items stand together, dropping neighbours leaves no repetition. -/
theorem pairwise_dedup (hkey : Function.Injective key) {items : List α}
    (hsorted : items.Pairwise fun left right => key left ≤ key right) :
    (dedup items).Pairwise fun left right => key left < key right := by
  induction items with
  | nil => exact List.Pairwise.nil
  | cons item rest ih =>
      obtain ⟨hitem, hrest⟩ := List.pairwise_cons.mp hsorted
      have hdedup := ih hrest
      have hbound : ∀ other ∈ dedup rest, key item ≤ key other :=
        fun other hother => hitem other (mem_dedup.mp hother)
      rw [dedup]
      split
      · exact List.pairwise_singleton _ _
      · next next others hnext =>
        rw [hnext] at hdedup hbound
        split
        · exact hdedup
        · next hne =>
          have hlt : key item < key next :=
            lt_of_le_of_ne (hbound next List.mem_cons_self) fun heq => hne (hkey heq)
          refine List.pairwise_cons.mpr ⟨fun other hother => ?_, hdedup⟩
          rcases List.mem_cons.mp hother with rfl | hother
          · exact hlt
          · exact hlt.trans ((List.pairwise_cons.mp hdedup).1 other hother)

/-- Without duplicates the order of the keys is strict. -/
theorem pairwise_sortDedup (hkey : Function.Injective key) (items : List α) :
    (sortDedup key items).Pairwise fun left right => key left < key right :=
  pairwise_dedup hkey (pairwise_sort key items)

end

end CfIntegration.KeyedSort
