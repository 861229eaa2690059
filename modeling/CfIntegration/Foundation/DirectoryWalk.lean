import Mathlib.Data.List.Basic
import Mathlib.Data.List.Nodup
import CfIntegration.Foundation.DirectoryTree

/-! # Walking directory trees

The regular files of a tree, as a walk over its real directories finds them in
the order of the listings. No directory lists a name twice, so a walk finds each
file once, and every file that a path leads to.
-/

namespace CfIntegration.Tree

universe u

variable {β : Type u} {ν : Type}

/-- Induction over a tree, with a hypothesis for each entry of a directory. -/
@[elab_as_elim]
theorem inductionOn {motive : Tree β ν → Prop} (file : ∀ content, motive (.file content))
    (symlink : motive .symlink) (special : motive .special)
    (directory : ∀ entries, (∀ entry ∈ entries, motive entry.2) → motive (.directory entries)) :
    ∀ tree, motive tree
  | .file content => file content
  | .symlink => symlink
  | .special => special
  | .directory entries => directory entries fun entry _ =>
      inductionOn file symlink special directory entry.2
termination_by tree => tree
decreasing_by
  rename_i hmem
  have := List.sizeOf_lt_of_mem hmem
  rcases entry with ⟨name, tree⟩
  simp only [Tree.directory.sizeOf_spec, Prod.mk.sizeOf_spec] at *
  omega

mutual

/-- The regular files below a place, with their paths. -/
def filesBelow (place : List ν) : Tree β ν → List (List ν × β)
  | .file content => [(place, content)]
  | .symlink | .special => []
  | .directory entries => filesOfEntries place entries

def filesOfEntries (place : List ν) : List (ν × Tree β ν) → List (List ν × β)
  | [] => []
  | (name, tree) :: rest => filesBelow (place ++ [name]) tree ++ filesOfEntries place rest

end

/-- The files of a directory are those of its entries, in their order. -/
theorem filesOfEntries_eq (place : List ν) (entries : List (ν × Tree β ν)) :
    filesOfEntries place entries =
      entries.flatMap fun entry => entry.2.filesBelow (place ++ [entry.1]) := by
  induction entries with
  | nil => rfl
  | cons entry rest ih => rw [filesOfEntries, ih, List.flatMap_cons]

theorem filesBelow_directory (place : List ν) (entries : List (ν × Tree β ν)) :
    (directory entries).filesBelow place =
      entries.flatMap fun entry => entry.2.filesBelow (place ++ [entry.1]) := by
  rw [filesBelow, filesOfEntries_eq]

/-- A walk finds files below the place it starts from. -/
theorem prefix_of_mem_filesBelow {tree : Tree β ν} {place path : List ν} {content : β}
    (hmem : (path, content) ∈ tree.filesBelow place) : place <+: path := by
  induction tree using inductionOn generalizing place with
  | file old =>
      simp only [filesBelow, List.mem_singleton, Prod.mk.injEq] at hmem
      simp [hmem.1]
  | symlink => cases hmem
  | special => cases hmem
  | directory entries ih =>
      rw [filesBelow_directory, List.mem_flatMap] at hmem
      obtain ⟨entry, hentry, hmem⟩ := hmem
      exact (List.prefix_append _ _).trans (ih entry hentry hmem)

/-- No directory lists a name twice. -/
inductive Distinct : Tree β ν → Prop
  | file (content : β) : Distinct (.file content)
  | symlink : Distinct .symlink
  | special : Distinct .special
  | directory {entries : List (ν × Tree β ν)} (names : (entries.map Prod.fst).Nodup)
      (trees : ∀ entry ∈ entries, Distinct entry.2) : Distinct (.directory entries)

/-- A directory in which no listing repeats a name. -/
structure Directory (β : Type u) (ν : Type) where
  entries : List (ν × Tree β ν)
  distinct : (directory entries).Distinct

def Directory.tree (directory : Directory β ν) : Tree β ν := .directory directory.entries

variable [DecidableEq ν]

@[simp] theorem fileAt?_file_nil (content : β) :
    (file content : Tree β ν).fileAt? [] = some content := rfl

@[simp] theorem fileAt?_symlink (path : List ν) : (symlink : Tree β ν).fileAt? path = none := by
  cases path <;> rfl

@[simp] theorem fileAt?_special (path : List ν) : (special : Tree β ν).fileAt? path = none := by
  cases path <;> rfl

@[simp] theorem fileAt?_directory_nil (entries : List (ν × Tree β ν)) :
    (directory entries).fileAt? [] = none := rfl

theorem fileAt?_directory_cons (entries : List (ν × Tree β ν)) (name : ν) (rest : List ν) :
    (directory entries).fileAt? (name :: rest) =
      (entries.lookup name).bind (fileAt? rest) := by
  unfold fileAt?
  rw [find?]
  cases entries.lookup name <;> rfl

/-- A lookup finds exactly the entries of a listing without repeated names. -/
theorem lookup_eq_some_iff {γ : Type u} {entries : List (ν × γ)}
    (hnames : (entries.map Prod.fst).Nodup) {name : ν} {value : γ} :
    entries.lookup name = some value ↔ (name, value) ∈ entries := by
  induction entries with
  | nil => simp
  | cons entry rest ih =>
      rcases entry with ⟨head, first⟩
      simp only [List.map_cons, List.nodup_cons] at hnames
      rw [List.lookup_cons]
      by_cases hhead : name = head
      · subst hhead
        have habsent : (name, value) ∉ rest := fun hmem =>
          hnames.1 (List.mem_map_of_mem hmem)
        simp [habsent, eq_comm]
      · simp [beq_false_of_ne hhead, ih hnames.2, hhead]

/-- A walk finds the files that a path leads to, and no others. -/
theorem mem_filesBelow {tree : Tree β ν} (hdistinct : tree.Distinct) {place path : List ν}
    {content : β} :
    (path, content) ∈ tree.filesBelow place ↔
      ∃ rest, path = place ++ rest ∧ tree.fileAt? rest = some content := by
  induction hdistinct generalizing place path with
  | file old =>
      constructor
      · intro hmem
        simp only [filesBelow, List.mem_singleton, Prod.mk.injEq] at hmem
        exact ⟨[], by simp [hmem.1], by simp [hmem.2]⟩
      · intro hfile
        obtain ⟨rest, rfl, hrest⟩ := hfile
        cases rest with
        | nil => simpa [filesBelow, eq_comm] using hrest
        | cons name rest => cases hrest
  | symlink => simp [filesBelow]
  | special => simp [filesBelow]
  | @directory entries hnames hentries ih =>
      rw [filesBelow_directory]
      simp only [List.mem_flatMap]
      constructor
      · intro hmem
        obtain ⟨⟨name, tree⟩, hentry, hmem⟩ := hmem
        obtain ⟨rest, rfl, hrest⟩ := (ih _ hentry).mp hmem
        refine ⟨name :: rest, by simp, ?_⟩
        rw [fileAt?_directory_cons, (lookup_eq_some_iff hnames).mpr hentry]
        exact hrest
      · intro hfile
        obtain ⟨rest, rfl, hrest⟩ := hfile
        cases rest with
        | nil => cases hrest
        | cons name rest =>
            rw [fileAt?_directory_cons] at hrest
            obtain ⟨tree, hlookup, hrest⟩ := Option.bind_eq_some_iff.mp hrest
            have hentry := (lookup_eq_some_iff hnames).mp hlookup
            exact ⟨(name, tree), hentry, (ih _ hentry).mpr ⟨rest, by simp, hrest⟩⟩

/-- The files of a whole tree. -/
def files (tree : Tree β ν) : List (List ν × β) := tree.filesBelow []

/-- In a tree of distinct names the files are what can be looked up. -/
theorem mem_files {tree : Tree β ν} (hdistinct : tree.Distinct) {path : List ν} {content : β} :
    (path, content) ∈ tree.files ↔ tree.fileAt? path = some content := by
  unfold files
  rw [mem_filesBelow hdistinct]
  simp

/-- Drop the entry a path leads to from its directory. -/
def remove : List ν → Tree β ν → Tree β ν
  | [name], .directory entries => .directory (entries.filter (·.1 ≠ name))
  | name :: rest, .directory entries =>
      .directory (entries.map fun entry =>
        if entry.1 = name then (entry.1, remove rest entry.2) else entry)
  | _, tree => tree

/-- An entry that is removed is gone, and no other. -/
theorem lookup_filter_ne {γ : Type u} (name other : ν) (entries : List (ν × γ)) :
    (entries.filter (·.1 ≠ name)).lookup other =
      if other = name then none else entries.lookup other := by
  induction entries with
  | nil => simp
  | cons entry rest ih =>
      rcases entry with ⟨head, value⟩
      by_cases hhead : head = name
      · subst hhead
        rw [List.filter_cons_of_neg (by simp), ih, List.lookup_cons]
        by_cases hother : other = head
        · simp [hother]
        · simp [hother, beq_false_of_ne hother]
      · rw [List.filter_cons_of_pos (by simpa using hhead), List.lookup_cons, List.lookup_cons, ih]
        by_cases hother : other = head
        · subst hother
          simp [hhead]
        · simp [beq_false_of_ne hother]

theorem lookup_map_at {γ : Type u} (name other : ν) (change : γ → γ) (entries : List (ν × γ)) :
    (entries.map fun entry => if entry.1 = name then (entry.1, change entry.2) else entry).lookup
        other =
      if other = name then (entries.lookup name).map change else entries.lookup other := by
  induction entries with
  | nil => simp
  | cons entry rest ih =>
      rcases entry with ⟨head, value⟩
      rw [List.map_cons, @List.lookup_cons _ _ _ rest]
      by_cases hhead : head = name
      · subst hhead
        by_cases hother : other = head
        · simp [hother]
        · simp [List.lookup_cons, hother, beq_false_of_ne hother, ih]
      · by_cases hother : other = head
        · subst hother
          simp [hhead]
        · simp [List.lookup_cons, hhead, beq_false_of_ne hother, beq_false_of_ne (Ne.symm hhead),
            ih]

/-- Removing a file leaves every other file as it is. -/
theorem fileAt?_remove {path : List ν} (hpath : path ≠ []) {tree : Tree β ν} {content : β}
    (hfile : tree.fileAt? path = some content) (other : List ν) :
    (tree.remove path).fileAt? other = if other = path then none else tree.fileAt? other := by
  induction path generalizing tree other with
  | nil => exact absurd rfl hpath
  | cons name rest ih =>
      cases tree with
      | file => cases hfile
      | symlink => simp at hfile
      | special => simp at hfile
      | directory entries =>
          rw [fileAt?_directory_cons] at hfile
          obtain ⟨child, hlookup, hchild⟩ := Option.bind_eq_some_iff.mp hfile
          cases rest with
          | nil =>
              rw [remove]
              cases other with
              | nil => simp
              | cons first others =>
                  rw [fileAt?_directory_cons, fileAt?_directory_cons, lookup_filter_ne]
                  by_cases hfirst : first = name
                  · subst hfirst
                    rw [if_pos rfl, hlookup]
                    -- What is removed is a file, so nothing lies below it.
                    cases child with
                    | file =>
                        cases others with
                        | nil => simp
                        | cons => simp [fileAt?, find?]
                    | symlink => simp at hchild
                    | special => simp at hchild
                    | directory => cases hchild
                  · simp [hfirst]
          | cons second tail =>
              have hremoved := fun others => ih (by simp) hchild others
              rw [remove]
              · cases other with
                | nil => simp
                | cons first others =>
                    rw [fileAt?_directory_cons, fileAt?_directory_cons, lookup_map_at]
                    by_cases hfirst : first = name
                    · subst hfirst
                      simp [hlookup, hremoved]
                    · simp [hfirst]
              · simp

/-- The same tree with some of its directories listed in another order. -/
inductive Reordered : Tree β ν → Tree β ν → Prop
  | listing {first second : List (ν × Tree β ν)} (order : first.Perm second) :
      Reordered (.directory first) (.directory second)
  | entry {before after : List (ν × Tree β ν)} {name : ν} {first second : Tree β ν}
      (reordered : Reordered first second) :
      Reordered (.directory (before ++ (name, first) :: after))
        (.directory (before ++ (name, second) :: after))
  | trans {first second third : Tree β ν} (left : Reordered first second)
      (right : Reordered second third) : Reordered first third

omit [DecidableEq ν] in
/-- The names of a directory are distinct, and so are those below its entries. -/
theorem Distinct.of_directory {entries : List (ν × Tree β ν)}
    (hdistinct : (Tree.directory entries).Distinct) :
    (entries.map Prod.fst).Nodup ∧ ∀ entry ∈ entries, entry.2.Distinct := by
  cases hdistinct with
  | directory names trees => exact ⟨names, trees⟩

omit [DecidableEq ν] in
/-- Reordering keeps the names distinct. -/
theorem Reordered.distinct {first second : Tree β ν} (hreordered : Reordered first second)
    (hfirst : first.Distinct) : second.Distinct := by
  induction hreordered with
  | listing order =>
      obtain ⟨hnames, htrees⟩ := hfirst.of_directory
      apply Distinct.directory
      · exact (order.map Prod.fst).nodup hnames
      · exact fun entry hentry => htrees entry (order.mem_iff.mpr hentry)
  | entry _ ih =>
      obtain ⟨hnames, htrees⟩ := hfirst.of_directory
      apply Distinct.directory
      · simpa using hnames
      · intro entry hentry
        rcases List.mem_append.mp hentry with hentry | hentry
        · exact htrees entry (List.mem_append_left _ hentry)
        · rcases List.mem_cons.mp hentry with rfl | hentry
          · exact ih (htrees _ (List.mem_append_right _ List.mem_cons_self))
          · exact htrees entry (List.mem_append_right _ (List.mem_cons_of_mem _ hentry))
  | trans _ _ ihleft ihright => exact ihright (ihleft hfirst)

omit [DecidableEq ν] in
/-- Another order of the listings leaves the same files, in another order. -/
theorem Reordered.filesBelow {first second : Tree β ν} (hreordered : Reordered first second)
    (place : List ν) : (first.filesBelow place).Perm (second.filesBelow place) := by
  induction hreordered generalizing place with
  | listing order =>
      rw [filesBelow_directory, filesBelow_directory]
      exact order.flatMap_right _
  | entry _ ih =>
      simp only [filesBelow_directory, List.flatMap_append, List.flatMap_cons]
      exact ((ih _).append_right _).append_left _
  | trans _ _ ihleft ihright => exact (ihleft place).trans (ihright place)

end CfIntegration.Tree
