import Mathlib.Data.List.Sort
import Mathlib.Data.Prod.Lex

/-! # Sets and maps with one canonical listing

A finite set over a linear order is kept as its strictly increasing list, and a
finite map as the association list sorted by key. Two of them with the same
members are equal, so an operation that builds a set in some other order still
produces the same value and the same iteration order.
-/

namespace CfIntegration

universe u v

/-- A finite set, listed in increasing order. -/
structure OrderedSet (α : Type u) [LT α] where
  elems : List α
  sorted : elems.Pairwise (· < ·)

namespace OrderedSet

section Basic

variable {α : Type u} [LinearOrder α]

instance : Membership α (OrderedSet α) := ⟨fun set element => element ∈ set.elems⟩

instance : DecidableEq (OrderedSet α) := fun left right =>
  decidable_of_iff (left.elems = right.elems) (by
    constructor
    · intro heq
      cases left
      cases right
      subst heq
      rfl
    · rintro rfl
      rfl)

instance (element : α) (set : OrderedSet α) : Decidable (element ∈ set) :=
  inferInstanceAs (Decidable (element ∈ set.elems))

@[simp] theorem mem_elems {set : OrderedSet α} {element : α} :
    element ∈ set.elems ↔ element ∈ set := Iff.rfl

/-- Membership determines the listing. -/
theorem ext_mem {left right : OrderedSet α} (hmem : ∀ element, element ∈ left ↔ element ∈ right) :
    left = right := by
  rcases left with ⟨leftElems, hleft⟩
  rcases right with ⟨rightElems, hright⟩
  have hperm : leftElems.Perm rightElems :=
    (List.perm_ext_iff_of_nodup hleft.sortedLT.nodup hright.sortedLT.nodup).mpr hmem
  have heq : leftElems = rightElems := hperm.eq_of_pairwise' hleft hright
  subst heq
  rfl

def empty : OrderedSet α := ⟨[], List.Pairwise.nil⟩

instance : Inhabited (OrderedSet α) := ⟨empty⟩

@[simp] theorem notMem_empty (element : α) : element ∉ (empty : OrderedSet α) :=
  List.not_mem_nil

def isEmpty (set : OrderedSet α) : Bool := set.elems.isEmpty

/-- Place an element into an increasing list unless it is already there. -/
def insertElem (element : α) : List α → List α
  | [] => [element]
  | head :: tail =>
      if element < head then element :: head :: tail
      else if head < element then head :: insertElem element tail
      else head :: tail

/-- An insertion adds the element alone. -/
theorem mem_insertElem {element candidate : α} {list : List α} :
    candidate ∈ insertElem element list ↔ candidate = element ∨ candidate ∈ list := by
  induction list with
  | nil => simp [insertElem]
  | cons head tail ih =>
      rw [insertElem]
      split
      · simp
      split
      · simp only [List.mem_cons, ih]
        tauto
      next hlt hgt =>
        have heq : element = head := le_antisymm (not_lt.mp hgt) (not_lt.mp hlt)
        subst heq
        simp

/-- An insertion keeps the order. -/
theorem pairwise_insertElem {element : α} {list : List α} (hsorted : list.Pairwise (· < ·)) :
    (insertElem element list).Pairwise (· < ·) := by
  induction list with
  | nil => simp [insertElem]
  | cons head tail ih =>
      obtain ⟨hhead, htail⟩ := List.pairwise_cons.mp hsorted
      rw [insertElem]
      split
      next hlt =>
        refine List.pairwise_cons.mpr ⟨?_, hsorted⟩
        intro other hother
        rcases List.mem_cons.mp hother with rfl | hother
        · exact hlt
        · exact hlt.trans (hhead other hother)
      split
      next hgt =>
        refine List.pairwise_cons.mpr ⟨?_, ih htail⟩
        intro other hother
        rcases mem_insertElem.mp hother with rfl | hother
        · exact hgt
        · exact hhead other hother
      next => exact hsorted

def insert (element : α) (set : OrderedSet α) : OrderedSet α :=
  ⟨insertElem element set.elems, pairwise_insertElem set.sorted⟩

/-- A set with one more element. -/
@[simp] theorem mem_insert {element candidate : α} {set : OrderedSet α} :
    candidate ∈ insert element set ↔ candidate = element ∨ candidate ∈ set :=
  mem_insertElem

/-- Collect a list, in whatever order and with whatever repetitions. -/
def ofList (list : List α) : OrderedSet α := list.foldr insert empty

/-- A set has the elements of the list it is made of. -/
@[simp] theorem mem_ofList {element : α} {list : List α} :
    element ∈ ofList list ↔ element ∈ list := by
  induction list with
  | nil => simp [ofList]
  | cons head tail ih =>
      change element ∈ insert head (ofList tail) ↔ _
      rw [mem_insert, ih, List.mem_cons]

/-- Collecting a strictly increasing list gives that listing back. -/
theorem ofList_of_pairwise {list : List α} (hsorted : list.Pairwise (· < ·)) :
    ofList list = ⟨list, hsorted⟩ :=
  ext_mem fun _ => mem_ofList

/-- A set is made of its own elements. -/
@[simp] theorem ofList_elems (set : OrderedSet α) : ofList set.elems = set :=
  ofList_of_pairwise set.sorted

/-- The elements of `left` that `right` lacks. -/
def difference (left right : OrderedSet α) : OrderedSet α :=
  ⟨left.elems.filter (· ∉ right.elems), left.sorted.filter _⟩

/-- The difference has the elements of the first set only. -/
@[simp] theorem mem_difference {left right : OrderedSet α} {element : α} :
    element ∈ left.difference right ↔ element ∈ left ∧ element ∉ right := by
  change element ∈ left.elems.filter (· ∉ right.elems) ↔ _
  simp

/-- A set is empty if nothing is in it. -/
theorem isEmpty_iff {set : OrderedSet α} : set.isEmpty = true ↔ ∀ element, element ∉ set := by
  rw [isEmpty, List.isEmpty_iff, List.eq_nil_iff_forall_not_mem]
  rfl

/-- No difference is left where the first set lies in the second. -/
theorem difference_isEmpty_iff {left right : OrderedSet α} :
    (left.difference right).isEmpty = true ↔ ∀ element ∈ left, element ∈ right := by
  simp [isEmpty_iff]

/-- Two sets are equal as soon as neither has an element the other lacks. -/
theorem eq_of_difference_isEmpty {left right : OrderedSet α}
    (hleft : (left.difference right).isEmpty = true)
    (hright : (right.difference left).isEmpty = true) : left = right :=
  ext_mem fun element =>
    ⟨difference_isEmpty_iff.mp hleft element, difference_isEmpty_iff.mp hright element⟩

@[simp] theorem difference_self (set : OrderedSet α) : (set.difference set).isEmpty = true :=
  difference_isEmpty_iff.mpr fun _ hmem => hmem

end Basic

end OrderedSet

/-- A finite map, listed by increasing key. -/
structure OrderedMap (κ : Type u) (ν : Type v) [LT κ] where
  entries : List (κ × ν)
  sorted : (entries.map Prod.fst).Pairwise (· < ·)
  deriving DecidableEq

namespace OrderedMap

variable {κ : Type u} {ν : Type v} [LinearOrder κ]

def empty : OrderedMap κ ν := ⟨[], List.Pairwise.nil⟩

instance : Inhabited (OrderedMap κ ν) := ⟨empty⟩

def find? (map : OrderedMap κ ν) (key : κ) : Option ν := map.entries.lookup key

/-- The keys, as the set they form. -/
def keys (map : OrderedMap κ ν) : OrderedSet κ := ⟨map.entries.map Prod.fst, map.sorted⟩

theorem find?_eq_none_iff {map : OrderedMap κ ν} {key : κ} :
    map.find? key = none ↔ key ∉ map.keys := by
  change map.entries.lookup key = none ↔ key ∉ map.entries.map Prod.fst
  rw [List.lookup_eq_none_iff]
  simp only [List.mem_map, not_exists, not_and, bne_iff_ne]
  exact ⟨fun h entry hentry heq => h entry hentry heq.symm,
    fun h entry hentry heq => h entry hentry heq.symm⟩

def values (map : OrderedMap κ ν) : List ν := map.entries.map Prod.snd

/-- Bind a key in a list sorted by key, replacing an earlier binding. -/
def insertEntry (key : κ) (value : ν) : List (κ × ν) → List (κ × ν)
  | [] => [(key, value)]
  | (head, old) :: tail =>
      if key < head then (key, value) :: (head, old) :: tail
      else if head < key then (head, old) :: insertEntry key value tail
      else (key, value) :: tail

theorem map_fst_insertEntry (key : κ) (value : ν) (entries : List (κ × ν)) :
    (insertEntry key value entries).map Prod.fst =
      OrderedSet.insertElem key (entries.map Prod.fst) := by
  induction entries with
  | nil => rfl
  | cons entry tail ih =>
      rcases entry with ⟨head, old⟩
      simp only [insertEntry, OrderedSet.insertElem, List.map_cons]
      split
      · rfl
      split
      · rw [List.map_cons, ih]
      next hlt hgt =>
        rw [List.map_cons, le_antisymm (not_lt.mp hgt) (not_lt.mp hlt)]

def insert (key : κ) (value : ν) (map : OrderedMap κ ν) : OrderedMap κ ν :=
  ⟨insertEntry key value map.entries, by
    rw [map_fst_insertEntry]
    exact OrderedSet.pairwise_insertElem map.sorted⟩

/-- An insertion adds its key alone. -/
@[simp] theorem mem_keys_insert {key candidate : κ} {value : ν} {map : OrderedMap κ ν} :
    candidate ∈ (insert key value map).keys ↔ candidate = key ∨ candidate ∈ map.keys := by
  change candidate ∈ (insertEntry key value map.entries).map Prod.fst ↔ _
  rw [map_fst_insertEntry]
  exact OrderedSet.mem_insertElem

/-- Binding a key keeps the other entries and binds the key to the new value. -/
theorem mem_insertEntry {key : κ} {value : ν} {entries : List (κ × ν)} {entry : κ × ν}
    (hmem : entry ∈ insertEntry key value entries) : entry = (key, value) ∨ entry ∈ entries := by
  induction entries with
  | nil => simpa [insertEntry] using hmem
  | cons head tail ih =>
      rcases head with ⟨head, old⟩
      rw [insertEntry] at hmem
      split at hmem
      · simpa using hmem
      split at hmem
      · rcases List.mem_cons.mp hmem with rfl | hmem
        · exact Or.inr List.mem_cons_self
        · exact (ih hmem).imp_right (List.mem_cons_of_mem _)
      · rcases List.mem_cons.mp hmem with rfl | hmem
        · exact Or.inl rfl
        · exact Or.inr (List.mem_cons_of_mem _ hmem)

/-- An insertion changes the value of its key alone. -/
theorem lookup_insertEntry {key candidate : κ} {value : ν} (entries : List (κ × ν)) :
    (insertEntry key value entries).lookup candidate =
      if candidate = key then some value else entries.lookup candidate := by
  by_cases hkey : candidate = key
  · subst hkey
    rw [if_pos rfl]
    induction entries with
    | nil => simp [insertEntry]
    | cons entry tail ih =>
        rcases entry with ⟨head, old⟩
        rw [insertEntry]
        split
        · simp
        split
        next hlt => rw [List.lookup_cons, beq_false_of_ne (ne_of_gt hlt), ih]
        · simp
  · rw [if_neg hkey]
    have hne := beq_false_of_ne hkey
    induction entries with
    | nil => simp [insertEntry, List.lookup_cons, hne]
    | cons entry tail ih =>
        rcases entry with ⟨head, old⟩
        rw [insertEntry]
        split
        · simp [List.lookup_cons, hne]
        split
        · rw [List.lookup_cons, List.lookup_cons, ih]
        next hlt hgt =>
          obtain rfl : key = head := le_antisymm (not_lt.mp hgt) (not_lt.mp hlt)
          simp [List.lookup_cons, hne]

/-- A binding hides the earlier one of its key and no other. -/
theorem find?_insert {key candidate : κ} {value : ν} {map : OrderedMap κ ν} :
    (insert key value map).find? candidate =
      if candidate = key then some value else map.find? candidate :=
  lookup_insertEntry map.entries

end OrderedMap

end CfIntegration
