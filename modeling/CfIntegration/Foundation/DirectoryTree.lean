import Mathlib.Data.List.Basic
import Mathlib.Tactic.Common

/-! # Directory trees

A directory tree with opaque file contents. Lookup follows real directories
only. Writing a file creates its missing parents, as `create_dir_all` followed by
`fs::write` does, and is refused where a component is not a directory or the
target is not a regular file.
-/

namespace CfIntegration

universe u

/-- A file-system entry as seen without following symbolic links. Names are text unless
they are given as something else. -/
inductive Tree (β : Type u) (ν : Type := String) where
  | file (content : β)
  | symlink
  | special
  | directory (entries : List (ν × Tree β ν))

namespace Tree

variable {β : Type u} {ν : Type} [DecidableEq ν]

/-- The entry reached by a relative path through real directories. -/
def find? : List ν → Tree β ν → Option (Tree β ν)
  | [], tree => some tree
  | name :: rest, .directory entries => (entries.lookup name).bind (find? rest)
  | _ :: _, _ => none

/-- The content of the regular file at a relative path. -/
def fileAt? (path : List ν) (tree : Tree β ν) : Option β :=
  match tree.find? path with
  | some (.file content) => some content
  | _ => none

/-- The content at a path of a tree that may not exist. -/
def contentAt? (tree : Option (Tree β)) (path : List String) : Option β :=
  tree.bind (fileAt? path)

/-- Bind a name in a directory listing, in place when it is already listed. -/
def setEntry (name : String) (value : Tree β) : List (String × Tree β) → List (String × Tree β)
  | [] => [(name, value)]
  | (head, old) :: tail =>
      if name == head then (name, value) :: tail else (head, old) :: setEntry name value tail

@[simp] theorem lookup_setEntry_self (name : String) (value : Tree β)
    (entries : List (String × Tree β)) :
    (setEntry name value entries).lookup name = some value := by
  induction entries with
  | nil => simp [setEntry]
  | cons entry tail ih =>
      rcases entry with ⟨head, old⟩
      rw [setEntry]
      split
      · simp
      next hne => rw [List.lookup_cons, Bool.eq_false_iff.mpr hne]; exact ih

/-- Setting an entry leaves the others as they are. -/
theorem lookup_setEntry_of_ne {name other : String} (hne : other ≠ name) (value : Tree β)
    (entries : List (String × Tree β)) :
    (setEntry name value entries).lookup other = entries.lookup other := by
  induction entries with
  | nil => simp [setEntry, hne]
  | cons entry tail ih =>
      rcases entry with ⟨head, old⟩
      rw [setEntry]
      split
      next heq =>
        have hhead : name = head := by simpa using heq
        subst hhead
        rw [List.lookup_cons, List.lookup_cons, beq_false_of_ne hne]
      next => rw [List.lookup_cons, List.lookup_cons, ih]

/-- Setting an entry to what it is changes nothing. -/
theorem setEntry_of_lookup {name : String} {value : Tree β} {entries : List (String × Tree β)}
    (hlookup : entries.lookup name = some value) : setEntry name value entries = entries := by
  induction entries with
  | nil => simp at hlookup
  | cons entry tail ih =>
      rcases entry with ⟨head, old⟩
      rw [setEntry]
      split
      next heq =>
        have hhead : name = head := by simpa using heq
        subst hhead
        simp only [List.lookup_cons, beq_self_eq_true, Option.some.injEq] at hlookup
        rw [hlookup]
      next hne =>
        rw [List.lookup_cons, Bool.eq_false_iff.mpr hne] at hlookup
        rw [ih hlookup]

/-- Write a file below a place that may not exist yet, creating its parents. -/
def write : List String → β → Option (Tree β) → Option (Tree β)
  | [], content, none => some (.file content)
  | [], content, some (.file _) => some (.file content)
  | [], _, some _ => none
  | name :: rest, content, none =>
      (write rest content none).map fun child => .directory [(name, child)]
  | name :: rest, content, some (.directory entries) =>
      (write rest content (entries.lookup name)).map fun child =>
        .directory (setEntry name child entries)
  | _ :: _, _, some _ => none

theorem contentAt?_none (path : List String) : contentAt? (none : Option (Tree β)) path = none :=
  rfl

theorem contentAt?_directory_cons (entries : List (String × Tree β)) (name : String)
    (rest : List String) :
    contentAt? (some (.directory entries)) (name :: rest) =
      contentAt? (entries.lookup name) rest := by
  unfold contentAt? fileAt?
  rw [Option.bind_some, find?]
  cases entries.lookup name <;> rfl

/-- A written file has its content. -/
theorem contentAt?_write_self {path : List String} {content : β} {tree : Option (Tree β)}
    {written : Tree β} (hwrite : write path content tree = some written) :
    contentAt? (some written) path = some content := by
  induction path generalizing tree written with
  | nil =>
      rcases tree with _ | (_ | _ | _ | _) <;> simp only [write, Option.some.injEq,
        reduceCtorEq] at hwrite <;> subst hwrite <;> rfl
  | cons name rest ih =>
      rcases tree with _ | (_ | _ | _ | entries) <;>
        simp only [write, Option.map_eq_some_iff, reduceCtorEq] at hwrite
      · obtain ⟨child, hchild, rfl⟩ := hwrite
        rw [contentAt?_directory_cons]
        simpa using ih hchild
      · obtain ⟨child, hchild, rfl⟩ := hwrite
        rw [contentAt?_directory_cons, lookup_setEntry_self]
        exact ih hchild

/-- Frame of a write: every file at another path keeps its content. A write
that turns a missing place into a directory, or goes through one, never hides
or creates another regular file. -/
theorem contentAt?_write_of_ne {path other : List String} (hne : other ≠ path) {content : β}
    {tree : Option (Tree β)} {written : Tree β} (hwrite : write path content tree = some written) :
    contentAt? (some written) other = contentAt? tree other := by
  induction path generalizing tree written other with
  | nil =>
      obtain ⟨name, rest, rfl⟩ := List.exists_cons_of_ne_nil hne
      rcases tree with _ | (_ | _ | _ | _) <;> simp only [write, Option.some.injEq,
        reduceCtorEq] at hwrite <;> subst hwrite <;> rfl
  | cons name rest ih =>
      rcases tree with _ | (_ | _ | _ | entries) <;>
        simp only [write, Option.map_eq_some_iff, reduceCtorEq] at hwrite
      · obtain ⟨child, hchild, rfl⟩ := hwrite
        cases other with
        | nil => rfl
        | cons first others =>
            rw [contentAt?_directory_cons, contentAt?_none]
            by_cases hfirst : first = name
            · subst hfirst
              rw [List.lookup_cons, beq_self_eq_true]
              exact ih (by simpa using hne) hchild
            · rw [List.lookup_cons, beq_false_of_ne hfirst]
              rfl
      · obtain ⟨child, hchild, rfl⟩ := hwrite
        cases other with
        | nil => rfl
        | cons first others =>
            rw [contentAt?_directory_cons, contentAt?_directory_cons]
            by_cases hfirst : first = name
            · subst hfirst
              rw [lookup_setEntry_self]
              exact ih (by simpa using hne) hchild
            · rw [lookup_setEntry_of_ne hfirst]

mutual

/-- The tree holds regular files and directories only. -/
def isPlain : Tree β → Bool
  | .file _ => true
  | .symlink | .special => false
  | .directory entries => arePlain entries

def arePlain : List (String × Tree β) → Bool
  | [] => true
  | (_, tree) :: rest => isPlain tree && arePlain rest

end

/-- The entries of a plain directory are plain. -/
theorem isPlain_of_lookup {entries : List (String × Tree β)}
    (hplain : arePlain entries = true) {name : String} {child : Tree β}
    (hlookup : entries.lookup name = some child) : isPlain child = true := by
  induction entries with
  | nil => simp at hlookup
  | cons entry rest ih =>
      rcases entry with ⟨head, tree⟩
      simp only [arePlain, Bool.and_eq_true] at hplain
      rw [List.lookup_cons] at hlookup
      split at hlookup
      · obtain rfl : tree = child := by simpa using hlookup
        exact hplain.1
      · exact ih hplain.2 hlookup

/-- Plain entries stay plain when one is set to a plain tree. -/
theorem arePlain_setEntry {entries : List (String × Tree β)} (hplain : arePlain entries = true)
    {name : String} {child : Tree β} (hchild : isPlain child = true) :
    arePlain (setEntry name child entries) = true := by
  induction entries with
  | nil => simp [setEntry, arePlain, hchild]
  | cons entry rest ih =>
      rcases entry with ⟨head, tree⟩
      simp only [arePlain, Bool.and_eq_true] at hplain
      rw [setEntry]
      split <;> simp [arePlain, hplain, hchild, ih hplain.2]

/-- Writing a file keeps a plain tree plain. -/
theorem isPlain_write {path : List String} {content : β} {tree : Option (Tree β)}
    (hplain : ∀ old, tree = some old → isPlain old = true) {written : Tree β}
    (hwrite : write path content tree = some written) : isPlain written = true := by
  induction path generalizing tree written with
  | nil =>
      rcases tree with _ | (_ | _ | _ | _) <;> simp only [write, Option.some.injEq,
        reduceCtorEq] at hwrite <;> subst hwrite <;> rfl
  | cons name rest ih =>
      rcases tree with _ | (_ | _ | _ | entries) <;>
        simp only [write, Option.map_eq_some_iff, reduceCtorEq] at hwrite
      · obtain ⟨child, hchild, rfl⟩ := hwrite
        simp [isPlain, arePlain, ih (by simp) hchild]
      · obtain ⟨child, hchild, rfl⟩ := hwrite
        have hentries : arePlain entries = true := by simpa [isPlain] using hplain _ rfl
        exact arePlain_setEntry hentries
          (ih (fun old hold => isPlain_of_lookup hentries hold) hchild)

/-- A write below a directory leaves a directory. -/
theorem directory_of_write {path : List String} {content : β} {entries : List (String × Tree β)}
    {written : Tree β} (hwrite : write path content (some (.directory entries)) = some written) :
    ∃ entries, written = .directory entries := by
  cases path with
  | nil => simp [write] at hwrite
  | cons name rest =>
      simp only [write, Option.map_eq_some_iff] at hwrite
      obtain ⟨child, _, rfl⟩ := hwrite
      exact ⟨_, rfl⟩

/-- Writing what a file already holds changes nothing. -/
theorem write_of_contentAt? {path : List String} {content : β} {tree : Tree β}
    (hcontent : contentAt? (some tree) path = some content) :
    write path content (some tree) = some tree := by
  induction path generalizing tree with
  | nil =>
      rcases tree with old | _ | _ | _ <;>
        simp only [contentAt?, fileAt?, find?, Option.bind_some, Option.some.injEq,
          reduceCtorEq] at hcontent
      rw [hcontent, write]
  | cons name rest ih =>
      cases tree with
      | file | symlink | special =>
          simp [contentAt?, fileAt?, find?] at hcontent
      | directory entries =>
          rw [contentAt?_directory_cons] at hcontent
          cases hlookup : entries.lookup name with
          | none => simp [hlookup, contentAt?] at hcontent
          | some child =>
              rw [hlookup] at hcontent
              rw [write, hlookup, ih hcontent, Option.map_some, setEntry_of_lookup hlookup]

end Tree

end CfIntegration
