import Mathlib.Data.List.Infix
import Mathlib.Logic.Function.Basic
import CfIntegration.Foundation.Fallible

/-! # Directories, links and paths

A file system is a directory tree with symbolic links. A place is the list of
names that leads to an entry through real directories; a path is walked from a
directory, follows links within a budget, and needs a directory at every step.
-/

namespace CfIntegration.FileSystem

universe u

inductive Component (ν : Type u) where
  | rootDir
  | curDir
  | parentDir
  | normal (name : ν)
  deriving DecidableEq

abbrev Path (ν : Type u) := List (Component ν)

abbrev Place (ν : Type u) := List ν

/-- An entry, as seen without following symbolic links. -/
inductive Entry (ν : Type u) (β : Type u) where
  | file (content : β)
  | symlink (target : Path ν)
  | directory (entries : List (ν × Entry ν β))

inductive PathError where
  | notFound
  | notDirectory
  | tooManyLinks
  deriving DecidableEq, Repr

/-- What an entry is, apart from its contents. -/
inductive Kind (ν : Type u) where
  | file
  | symlink (target : Path ν)
  | directory

variable {ν : Type u} {β : Type u} [DecidableEq ν]

def Entry.kind : Entry ν β → Kind ν
  | .file _ => .file
  | .symlink target => .symlink target
  | .directory _ => .directory

/-! ## Entries at places -/

/-- The entry at a place. -/
def Entry.get? : Place ν → Entry ν β → Option (Entry ν β)
  | [], entry => some entry
  | name :: rest, .directory entries => (entries.lookup name).bind (get? rest)
  | _ :: _, _ => none

/-- A listing with a name bound to an entry, or without the name. -/
def bindName (name : ν) (value : Option (Entry ν β)) (entries : List (ν × Entry ν β)) :
    List (ν × Entry ν β) :=
  (value.map (name, ·)).toList ++ entries.filter (·.1 ≠ name)

/-- Put an entry at a place below a directory, or remove what is there. -/
def Entry.put (value : Option (Entry ν β)) : Place ν → Entry ν β → Entry ν β
  | [], entry => value.getD entry
  | [name], .directory entries => .directory (bindName name value entries)
  | name :: rest, .directory entries =>
      match entries.lookup name with
      | some child => .directory (bindName name (some (put value rest child)) entries)
      | none => .directory entries
  | _ :: _, entry => entry

/-- A name that is removed is gone, and no other. -/
theorem lookup_filter_ne {name other : ν} (entries : List (ν × Entry ν β)) :
    (entries.filter (·.1 ≠ name)).lookup other =
      if other = name then none else entries.lookup other := by
  induction entries with
  | nil => simp
  | cons entry tail ih =>
      rcases entry with ⟨head, old⟩
      by_cases hhead : head = name
      · rw [List.filter_cons_of_neg (by simpa using hhead), ih, List.lookup_cons]
        split
        · rfl
        next hne => rw [beq_false_of_ne (hhead ▸ hne)]
      · rw [List.filter_cons_of_pos (by simpa using hhead), List.lookup_cons, List.lookup_cons, ih]
        by_cases hother : other = head
        · subst hother
          simp [hhead]
        · rw [beq_false_of_ne hother]

/-- A name that is bound has its value. -/
@[simp] theorem lookup_bindName_self (name : ν) (value : Option (Entry ν β))
    (entries : List (ν × Entry ν β)) : (bindName name value entries).lookup name = value := by
  unfold bindName
  rw [List.lookup_append, lookup_filter_ne]
  cases value <;> simp

/-- Binding a name leaves the others as they are. -/
theorem lookup_bindName_of_ne {name other : ν} (hne : other ≠ name)
    (value : Option (Entry ν β)) (entries : List (ν × Entry ν β)) :
    (bindName name value entries).lookup other = entries.lookup other := by
  unfold bindName
  rw [List.lookup_append, lookup_filter_ne, if_neg hne]
  cases value
  · rfl
  · simp [List.lookup_cons, beq_false_of_ne hne]

theorem mem_of_lookup {name : ν} {entry : Entry ν β} {entries : List (ν × Entry ν β)}
    (hlookup : entries.lookup name = some entry) : (name, entry) ∈ entries := by
  obtain ⟨before, after, rfl, _⟩ := List.lookup_eq_some_iff.mp hlookup
  exact List.mem_append_right _ List.mem_cons_self

@[simp] theorem Entry.get?_nil (entry : Entry ν β) : entry.get? [] = some entry := by
  cases entry <;> rfl

/-- A place is looked up in two parts. -/
theorem Entry.get?_append (front back : Place ν) (entry : Entry ν β) :
    entry.get? (front ++ back) = (entry.get? front).bind (Entry.get? back) := by
  induction front generalizing entry with
  | nil => simp
  | cons name rest ih =>
      rcases entry with _ | _ | entries
      · rfl
      · rfl
      · rw [List.cons_append, Entry.get?, Entry.get?]
        cases entries.lookup name with
        | none => rfl
        | some child => exact ih child

/-- What is at a place, apart from its contents. -/
def Entry.kindAt (entry : Entry ν β) (place : Place ν) : Option (Kind ν) :=
  (entry.get? place).map Entry.kind

theorem Entry.kindAt_append (front back : Place ν) (entry : Entry ν β) :
    entry.kindAt (front ++ back) = (entry.get? front).bind (Entry.kindAt · back) := by
  unfold Entry.kindAt
  rw [Entry.get?_append]
  cases entry.get? front <;> rfl

/-- Whoever is above an entry is a directory. -/
theorem Entry.get?_directory_of_append {front back : Place ν} {entry below : Entry ν β}
    (hback : back ≠ []) (hbelow : entry.get? (front ++ back) = some below) :
    ∃ entries, entry.get? front = some (.directory entries) := by
  rw [Entry.get?_append, Option.bind_eq_some_iff] at hbelow
  obtain ⟨above, habove, hbelow⟩ := hbelow
  cases back with
  | nil => contradiction
  | cons name rest =>
      rcases above with _ | _ | entries
      · cases hbelow
      · cases hbelow
      · exact ⟨entries, habove⟩

section Put

variable {value : Option (Entry ν β)}

theorem Entry.put_cons_cons (name next : ν) (rest : Place ν)
    (entries : List (ν × Entry ν β)) :
    Entry.put value (name :: next :: rest) (.directory entries) =
      match entries.lookup name with
      | some child => .directory (bindName name (some (child.put value (next :: rest))) entries)
      | none => .directory entries := rfl

/-- What was put at a place is found there. -/
theorem Entry.get?_put_self {parent : Place ν} {name : ν} {entry : Entry ν β}
    {entries : List (ν × Entry ν β)} (hparent : entry.get? parent = some (.directory entries)) :
    (entry.put value (parent ++ [name])).get? (parent ++ [name]) = value := by
  induction parent generalizing entry with
  | nil =>
      cases hparent
      simp [Entry.put, Entry.get?]
  | cons head rest ih =>
      rcases entry with _ | _ | siblings
      · cases hparent
      · cases hparent
      · rw [Entry.get?, Option.bind_eq_some_iff] at hparent
        obtain ⟨child, hchild, hparent⟩ := hparent
        have hinner := ih hparent
        cases rest with
        | nil =>
            simp only [List.nil_append, List.cons_append] at hinner ⊢
            rw [Entry.put_cons_cons, hchild, Entry.get?, lookup_bindName_self]
            exact hinner
        | cons next rest =>
            simp only [List.cons_append] at hinner ⊢
            rw [Entry.put_cons_cons, hchild, Entry.get?, lookup_bindName_self]
            exact hinner

/-- Nothing beside the place changes. -/
theorem Entry.get?_put_of_disjoint {place other : Place ν} {entry : Entry ν β}
    (hbelow : ¬ place <+: other) (habove : ¬ other <+: place) :
    (entry.put value place).get? other = entry.get? other := by
  induction place generalizing entry other with
  | nil => exact absurd (List.nil_prefix) hbelow
  | cons name rest ih =>
      cases other with
      | nil => exact absurd (List.nil_prefix) habove
      | cons head tail =>
          rcases entry with _ | _ | siblings
          · cases rest <;> rfl
          · cases rest <;> rfl
          by_cases hhead : head = name
          · subst hhead
            rw [List.cons_prefix_cons] at hbelow habove
            have hbelow' : ¬ rest <+: tail := fun hrest => hbelow ⟨rfl, hrest⟩
            have habove' : ¬ tail <+: rest := fun htail => habove ⟨rfl, htail⟩
            cases rest with
            | nil => exact absurd List.nil_prefix hbelow'
            | cons next rest =>
                rw [Entry.put_cons_cons]
                cases hchild : siblings.lookup head with
                | none => rfl
                | some child =>
                    rw [Entry.get?, Entry.get?, lookup_bindName_self, hchild]
                    exact ih hbelow' habove'
          · cases rest with
            | nil => simp only [Entry.put, Entry.get?, lookup_bindName_of_ne hhead]
            | cons next rest =>
                rw [Entry.put_cons_cons]
                cases siblings.lookup name with
                | none => rfl
                | some child => rw [Entry.get?, Entry.get?, lookup_bindName_of_ne hhead]

/-- What is strictly above the place stays what it is. -/
theorem Entry.kindAt_put_of_above {above rest : Place ν} {entry : Entry ν β} (hrest : rest ≠ []) :
    (entry.put value (above ++ rest)).kindAt above = entry.kindAt above := by
  induction above generalizing entry with
  | nil =>
      obtain ⟨name, rest, rfl⟩ := List.exists_cons_of_ne_nil hrest
      rcases entry with _ | _ | siblings
      · cases rest <;> rfl
      · cases rest <;> rfl
      · cases rest with
        | nil => rfl
        | cons next rest =>
            rw [List.nil_append, Entry.put_cons_cons]
            cases siblings.lookup name <;> rfl
  | cons name tail ih =>
      rcases entry with _ | _ | siblings
      · cases htail : tail ++ rest <;> simp [htail, Entry.put, Entry.kindAt, Entry.get?]
      · cases htail : tail ++ rest <;> simp [htail, Entry.put, Entry.kindAt, Entry.get?]
      · obtain ⟨next, others, hothers⟩ := List.exists_cons_of_ne_nil
          (List.append_ne_nil_of_right_ne_nil tail hrest)
        rw [List.cons_append, hothers, Entry.put_cons_cons]
        cases hchild : siblings.lookup name with
        | none => rfl
        | some child =>
            have hinner := @ih child
            unfold Entry.kindAt at hinner ⊢
            rw [Entry.get?, Entry.get?, lookup_bindName_self, hchild, ← hothers]
            exact hinner

/-- An entry beside the place is not affected. -/
theorem Entry.get?_put_sibling {parent : Place ν} {name other : ν} (hne : other ≠ name)
    (rest : Place ν) (entry : Entry ν β) :
    (entry.put value (parent ++ [name])).get? (parent ++ other :: rest) =
      entry.get? (parent ++ other :: rest) := by
  refine Entry.get?_put_of_disjoint ?_ ?_
  · rw [List.prefix_append_right_inj, List.cons_prefix_cons]
    exact fun hbegins => hne hbegins.1.symm
  · rw [List.prefix_append_right_inj, List.cons_prefix_cons]
    exact fun hbegins => hne hbegins.1

/-- A directory stays one when something below it is put or removed. -/
theorem Entry.get?_put_parent {parent : Place ν} (name : ν) {entry : Entry ν β}
    {entries : List (ν × Entry ν β)} (hparent : entry.get? parent = some (.directory entries)) :
    ∃ entries, (entry.put value (parent ++ [name])).get? parent = some (.directory entries) := by
  have hkind : (entry.put value (parent ++ [name])).kindAt parent = entry.kindAt parent :=
    Entry.kindAt_put_of_above (List.cons_ne_nil name [])
  rw [Entry.kindAt, Entry.kindAt, hparent, Option.map_some, Option.map_eq_some_iff] at hkind
  obtain ⟨after, hafter, hkind⟩ := hkind
  rcases after with _ | _ | entries
  · cases hkind
  · cases hkind
  · exact ⟨entries, hafter⟩

end Put

/-! ## Adding entries -/

/-- Everything that was there is still there, apart from the contents. -/
def Extends (before after : Entry ν β) : Prop :=
  ∀ place kind, before.kindAt place = some kind → after.kindAt place = some kind

theorem Extends.refl (entry : Entry ν β) : Extends entry entry := fun _ _ hkind => hkind

/-- Extensions compose. -/
theorem Extends.trans {first second third : Entry ν β} (hfirst : Extends first second)
    (hsecond : Extends second third) : Extends first third :=
  fun place kind hkind => hsecond place kind (hfirst place kind hkind)

/-- Nothing is lost when an entry is put where there was none. -/
theorem extends_put_of_absent {place : Place ν} {entry added : Entry ν β}
    (habsent : entry.get? place = none) : Extends entry (entry.put (some added) place) := by
  intro other kind hkind
  by_cases hbelow : place <+: other
  · obtain ⟨rest, rfl⟩ := hbelow
    rw [Entry.kindAt, Entry.get?_append, habsent] at hkind
    cases hkind
  by_cases habove : other <+: place
  · obtain ⟨rest, rfl⟩ := habove
    rw [Entry.kindAt_put_of_above, hkind]
    rintro rfl
    exact hbelow (by simp)
  · rw [Entry.kindAt, Entry.get?_put_of_disjoint hbelow habove]
    exact hkind

/-- A directory that is filled holds what it was filled with. -/
theorem Entry.get?_put_of_empty {place : Place ν} {entry : Entry ν β}
    (hempty : entry.get? place = some (.directory [])) (entries : List (ν × Entry ν β)) :
    (entry.put (some (.directory entries)) place).get? place = some (.directory entries) := by
  rcases List.eq_nil_or_concat place with rfl | ⟨parent, name, rfl⟩
  · rfl
  · rw [List.concat_eq_append] at hempty ⊢
    obtain ⟨siblings, hparent⟩ :=
      Entry.get?_directory_of_append (List.cons_ne_nil name []) hempty
    exact Entry.get?_put_self hparent

/-- Nothing is lost when an empty directory is filled. -/
theorem extends_put_of_empty {place : Place ν} {entry : Entry ν β}
    (hempty : entry.get? place = some (.directory [])) (entries : List (ν × Entry ν β)) :
    Extends entry (entry.put (some (.directory entries)) place) := by
  intro other kind hkind
  by_cases hbelow : place <+: other
  · obtain ⟨rest, rfl⟩ := hbelow
    rw [Entry.kindAt_append, hempty] at hkind
    cases rest with
    | cons name rest => cases hkind
    | nil =>
        cases hkind
        rw [List.append_nil, Entry.kindAt, Entry.get?_put_of_empty hempty]
        rfl
  by_cases habove : other <+: place
  · obtain ⟨rest, rfl⟩ := habove
    rw [Entry.kindAt_put_of_above, hkind]
    rintro rfl
    exact hbelow (by simp)
  · rw [Entry.kindAt, Entry.get?_put_of_disjoint hbelow habove]
    exact hkind

/-! ## Walking -/

/-- Where one component leads: to a place, or on along a link. -/
inductive Stepped (ν : Type u) where
  | arrived (place : Place ν)
  | link (target : Path ν)

def Entry.directoryAt (root : Entry ν β) (here : Place ν) : Except PathError PUnit.{u + 1} :=
  match root.kindAt here with
  | some .directory => .ok ⟨⟩
  | some _ => .error .notDirectory
  | none => .error .notFound

def Entry.step (root : Entry ν β) (here : Place ν) (component : Component ν) :
    Except PathError (Stepped ν) := do
  root.directoryAt here
  match component with
  | .rootDir => .ok (.arrived [])
  | .curDir => .ok (.arrived here)
  | .parentDir => .ok (.arrived here.dropLast)
  | .normal name => match root.kindAt (here ++ [name]) with
      | none => .error .notFound
      | some (.symlink target) => .ok (.link target)
      | some _ => .ok (.arrived (here ++ [name]))

/-- Walk a path; `follow` walks on after a link. -/
def Entry.walkWith (root : Entry ν β)
    (follow : Path ν → Place ν → Except PathError (Place ν × Nat)) (budget : Nat) :
    Path ν → Place ν → Except PathError (Place ν × Nat)
  | [], here => .ok (here, budget)
  | component :: rest, here =>
      match root.step here component with
      | .error error => .error error
      | .ok (.arrived next) => root.walkWith follow budget rest next
      | .ok (.link target) => follow (target ++ rest) here

/-- Walk a path from a directory, following at most so many links; returns how
many links may still be followed. -/
def Entry.walk (root : Entry ν β) : Nat → Path ν → Place ν → Except PathError (Place ν × Nat)
  | 0 => root.walkWith (fun _ _ => .error .tooManyLinks) 0
  | budget + 1 => root.walkWith (root.walk budget) (budget + 1)

@[simp] theorem Entry.walk_nil (root : Entry ν β) (budget : Nat) (here : Place ν) :
    root.walk budget [] here = .ok (here, budget) := by
  cases budget <;> rfl

theorem Entry.walk_cons (root : Entry ν β) (budget : Nat) (component : Component ν)
    (rest : Path ν) (here : Place ν) :
    root.walk budget (component :: rest) here =
      match root.step here component with
      | .error error => .error error
      | .ok (.arrived next) => root.walk budget rest next
      | .ok (.link target) => match budget with
          | 0 => .error .tooManyLinks
          | budget + 1 => root.walk budget (target ++ rest) here := by
  cases budget <;> rfl

/-- A successful walk, step by step. -/
inductive Entry.Walks (root : Entry ν β) : Nat → Path ν → Place ν → Place ν × Nat → Prop where
  | done (budget : Nat) (here : Place ν) : Walks root budget [] here (here, budget)
  | arrive {budget : Nat} {component : Component ν} {rest : Path ν} {here next : Place ν}
      {reached : Place ν × Nat} (hstep : root.step here component = .ok (.arrived next))
      (hrest : Walks root budget rest next reached) :
      Walks root budget (component :: rest) here reached
  | follow {budget : Nat} {component : Component ν} {rest target : Path ν} {here : Place ν}
      {reached : Place ν × Nat} (hstep : root.step here component = .ok (.link target))
      (hrest : Walks root budget (target ++ rest) here reached) :
      Walks root (budget + 1) (component :: rest) here reached

/-- A walk that arrives is one of the relation. -/
theorem Entry.walk_eq_ok {root : Entry ν β} {budget : Nat} {path : Path ν} {here : Place ν}
    {reached : Place ν × Nat} :
    root.walk budget path here = .ok reached ↔ root.Walks budget path here reached := by
  constructor
  · intro hwalk
    -- Links spend the budget and names the path: both recursions of the walk.
    induction budget generalizing path here with
    | zero =>
        induction path generalizing here with
        | nil =>
            rw [Entry.walk_nil, Except.ok.injEq] at hwalk
            exact hwalk ▸ .done 0 here
        | cons component rest ih =>
            rw [Entry.walk_cons] at hwalk
            cases hstep : root.step here component with
            | error error => simp [hstep] at hwalk
            | ok stepped =>
                rw [hstep] at hwalk
                cases stepped with
                | arrived next => exact .arrive hstep (ih hwalk)
                | link target => cases hwalk
    | succ budget ihbudget =>
        induction path generalizing here with
        | nil =>
            rw [Entry.walk_nil, Except.ok.injEq] at hwalk
            exact hwalk ▸ .done (budget + 1) here
        | cons component rest ih =>
            rw [Entry.walk_cons] at hwalk
            cases hstep : root.step here component with
            | error error => simp [hstep] at hwalk
            | ok stepped =>
                rw [hstep] at hwalk
                cases stepped with
                | arrived next => exact .arrive hstep (ih hwalk)
                | link target => exact .follow hstep (ihbudget hwalk)
  · intro hwalks
    induction hwalks with
    | done budget here => exact Entry.walk_nil ..
    | arrive hstep _ ih =>
        rw [Entry.walk_cons, hstep]
        exact ih
    | follow hstep _ ih =>
        rw [Entry.walk_cons, hstep]
        exact ih

/-- A path is walked piece by piece. -/
theorem Entry.walks_append_iff {root : Entry ν β} {budget : Nat} {front back : Path ν}
    {here : Place ν} {reached : Place ν × Nat} :
    root.Walks budget (front ++ back) here reached ↔
      ∃ middle left, root.Walks budget front here (middle, left) ∧
        root.Walks left back middle reached := by
  constructor
  · intro hwalks
    generalize hpath : front ++ back = path at hwalks
    induction hwalks generalizing front with
    | done budget here =>
        obtain ⟨rfl, rfl⟩ := List.append_eq_nil_iff.mp hpath
        exact ⟨here, budget, .done budget here, .done budget here⟩
    | @arrive budget component rest here next reached hstep hrest ih =>
        cases front with
        | nil =>
            cases hpath
            exact ⟨here, budget, .done budget here, .arrive hstep hrest⟩
        | cons head front =>
            obtain ⟨rfl, htail⟩ := List.cons.inj hpath
            -- The target of the link takes the place of the component, in front of what is left.
            obtain ⟨middle, left, hfront, hback⟩ := ih htail
            exact ⟨middle, left, .arrive hstep hfront, hback⟩
    | @follow budget component rest target here reached hstep hrest ih =>
        cases front with
        | nil =>
            cases hpath
            exact ⟨here, budget + 1, .done _ here, .follow hstep hrest⟩
        | cons head front =>
            obtain ⟨rfl, htail⟩ := List.cons.inj hpath
            obtain ⟨middle, left, hfront, hback⟩ :=
              @ih (target ++ front) ((List.append_assoc ..).trans (congrArg (target ++ ·) htail))
            exact ⟨middle, left, .follow hstep hfront, hback⟩
  · rintro ⟨middle, left, hfront, hback⟩
    generalize hmiddle : (middle, left) = stop at hfront
    induction hfront with
    | done budget here =>
        cases hmiddle
        exact hback
    | arrive hstep _ ih => exact .arrive hstep (ih hmiddle)
    | follow hstep _ ih =>
        refine .follow hstep (List.append_assoc .. ▸ ih hmiddle)

/-- A larger budget leads to the same place and leaves the difference. -/
theorem Entry.Walks.add {root : Entry ν β} {budget left : Nat} {path : Path ν}
    {here place : Place ν} (hwalks : root.Walks budget path here (place, left)) (spare : Nat) :
    root.Walks (budget + spare) path here (place, left + spare) := by
  generalize hreached : (place, left) = reached at hwalks
  induction hwalks with
  | done budget here =>
      cases hreached
      exact .done ..
  | arrive hstep _ ih => exact .arrive hstep (ih hreached)
  | follow hstep _ ih =>
      rw [Nat.succ_add]
      exact .follow hstep (ih hreached)

/-- A walk uses up its budget for links, and never adds to it. -/
theorem Entry.Walks.left_le {root : Entry ν β} {budget : Nat} {path : Path ν} {here : Place ν}
    {reached : Place ν × Nat} (hwalks : root.Walks budget path here reached) :
    reached.2 ≤ budget := by
  induction hwalks with
  | done budget here => exact Nat.le_refl _
  | arrive _ _ ih => exact ih
  | follow _ _ ih => exact Nat.le_succ_of_le ih

/-- A directory stays one in an extension. -/
theorem Extends.directoryAt {before after : Entry ν β} (hextends : Extends before after)
    {here : Place ν} (hdirectory : before.directoryAt here = .ok ⟨⟩) :
    after.directoryAt here = .ok ⟨⟩ := by
  unfold Entry.directoryAt at hdirectory ⊢
  split at hdirectory
  next hkind => rw [hextends here _ hkind]
  all_goals cases hdirectory

/-- A step leads to the same place in an extension. -/
theorem Extends.step {before after : Entry ν β} (hextends : Extends before after)
    {here : Place ν} {component : Component ν} {stepped : Stepped ν}
    (hstep : before.step here component = .ok stepped) :
    after.step here component = .ok stepped := by
  obtain ⟨_, hdirectory, hstep⟩ := except_bind_eq_ok.mp hstep
  refine except_bind_eq_ok.mpr ⟨⟨⟩, hextends.directoryAt hdirectory, ?_⟩
  cases component with
  | rootDir => exact hstep
  | curDir => exact hstep
  | parentDir => exact hstep
  | normal name =>
      dsimp only at hstep ⊢
      cases hkind : before.kindAt (here ++ [name]) with
      | none => simp [hkind] at hstep
      | some kind =>
          rw [hkind] at hstep
          rw [hextends _ _ hkind]
          exact hstep

/-- A path still leads to the same place when entries were added. -/
theorem Extends.walks {before after : Entry ν β} (hextends : Extends before after)
    {budget : Nat} {path : Path ν} {here : Place ν} {reached : Place ν × Nat}
    (hwalks : before.Walks budget path here reached) : after.Walks budget path here reached := by
  induction hwalks with
  | done budget here => exact .done budget here
  | arrive hstep _ ih => exact .arrive (hextends.step hstep) ih
  | follow hstep _ ih => exact .follow (hextends.step hstep) ih

/-- What is in both trees is the same in both, apart from the contents. -/
def Compatible (first second : Entry ν β) : Prop :=
  ∀ place kind other, first.kindAt place = some kind → second.kindAt place = some other →
    kind = other

/-- In compatible file systems a step leads to the same place. -/
theorem Compatible.step {first second : Entry ν β} (hcompatible : Compatible first second)
    {here : Place ν} {component : Component ν} {stepped other : Stepped ν}
    (hfirst : first.step here component = .ok stepped)
    (hsecond : second.step here component = .ok other) : stepped = other := by
  obtain ⟨_, _, hfirst⟩ := except_bind_eq_ok.mp hfirst
  obtain ⟨_, _, hsecond⟩ := except_bind_eq_ok.mp hsecond
  cases component with
  | rootDir => exact Except.ok.inj (hfirst.symm.trans hsecond)
  | curDir => exact Except.ok.inj (hfirst.symm.trans hsecond)
  | parentDir => exact Except.ok.inj (hfirst.symm.trans hsecond)
  | normal name =>
      dsimp only at hfirst hsecond
      cases hkind : first.kindAt (here ++ [name]) with
      | none => simp [hkind] at hfirst
      | some kind =>
          cases hother : second.kindAt (here ++ [name]) with
          | none => simp [hother] at hsecond
          | some otherKind =>
              obtain rfl := hcompatible _ _ _ hkind hother
              rw [hkind] at hfirst
              rw [hother] at hsecond
              exact Except.ok.inj (hfirst.symm.trans hsecond)

/-- A path that leads somewhere in both trees leads to the same place. -/
theorem Compatible.walks {first second : Entry ν β} (hcompatible : Compatible first second)
    {budget : Nat} {path : Path ν} {here : Place ν} {reached other : Place ν × Nat}
    (hfirst : first.Walks budget path here reached)
    (hsecond : second.Walks budget path here other) : reached = other := by
  induction hfirst with
  | done budget here =>
      cases hsecond
      rfl
  | arrive hstep _ ih =>
      cases hsecond with
      | arrive hother hrest =>
          cases hcompatible.step hstep hother
          exact ih hrest
      | follow hother _ => cases hcompatible.step hstep hother
  | follow hstep _ ih =>
      cases hsecond with
      | arrive hother _ => cases hcompatible.step hstep hother
      | follow hother hrest =>
          cases hcompatible.step hstep hother
          exact ih hrest

/-- A place that can be entered is a directory. -/
theorem Entry.directoryAt_eq_ok {root : Entry ν β} {here : Place ν} {result : PUnit.{u + 1}} :
    root.directoryAt here = .ok result ↔ ∃ entries, root.get? here = some (.directory entries) := by
  unfold Entry.directoryAt Entry.kindAt
  rcases root.get? here with _ | (_ | _ | entries) <;> simp [Entry.kind]

theorem Entry.Walks.step {root : Entry ν β} {budget : Nat} {component : Component ν}
    {rest : Path ν} {here : Place ν} {reached : Place ν × Nat}
    (hwalks : root.Walks budget (component :: rest) here reached) :
    ∃ stepped, root.step here component = .ok stepped := by
  cases hwalks with
  | arrive hstep _ => exact ⟨_, hstep⟩
  | follow hstep _ => exact ⟨_, hstep⟩

/-- A walk that goes on starts in a directory. -/
theorem Entry.Walks.directory {root : Entry ν β} {budget : Nat} {component : Component ν}
    {rest : Path ν} {here : Place ν} {reached : Place ν × Nat}
    (hwalks : root.Walks budget (component :: rest) here reached) :
    ∃ entries, root.get? here = some (.directory entries) := by
  obtain ⟨_, hstep⟩ := hwalks.step
  obtain ⟨_, hdirectory, _⟩ := except_bind_eq_ok.mp hstep
  exact Entry.directoryAt_eq_ok.mp hdirectory

/-- What a step arrives at is an entry that is not a link. -/
theorem Entry.get?_of_step {root : Entry ν β} {here next : Place ν} {component : Component ν}
    (hstep : root.step here component = .ok (.arrived next)) :
    ∃ entry, root.get? next = some entry ∧ ∀ target, entry ≠ .symlink target := by
  obtain ⟨_, hdirectory, hstep⟩ := except_bind_eq_ok.mp hstep
  obtain ⟨entries, hhere⟩ := Entry.directoryAt_eq_ok.mp hdirectory
  cases component with
  | rootDir =>
      cases hstep
      cases here with
      | nil => exact ⟨_, hhere, nofun⟩
      | cons name rest =>
          rcases root with _ | _ | entries
          · cases hhere
          · cases hhere
          · exact ⟨_, rfl, nofun⟩
  | curDir =>
      cases hstep
      exact ⟨_, hhere, nofun⟩
  | parentDir =>
      cases hstep
      -- The parent of the top directory is itself.
      rcases List.eq_nil_or_concat here with rfl | ⟨parent, name, rfl⟩
      · exact ⟨_, hhere, nofun⟩
      · rw [List.concat_eq_append] at hhere
        obtain ⟨entries, hparent⟩ :=
          Entry.get?_directory_of_append (List.cons_ne_nil name []) hhere
        rw [List.concat_eq_append, List.dropLast_concat]
        exact ⟨_, hparent, nofun⟩
  | normal name =>
      dsimp only [Entry.kindAt] at hstep
      -- A missing name is no step, and a link does not arrive.
      rcases hnext : root.get? (here ++ [name]) with _ | (_ | _ | entries)
      · simp [hnext] at hstep
      · rw [hnext] at hstep
        cases hstep
        exact ⟨_, hnext, nofun⟩
      · rw [hnext] at hstep
        cases hstep
      · rw [hnext] at hstep
        cases hstep
        exact ⟨_, hnext, nofun⟩

/-- What a walk arrives at exists, and is not a link. -/
theorem Entry.get?_of_walks {root : Entry ν β} {budget : Nat} {path : Path ν} {here : Place ν}
    {reached : Place ν × Nat} (hwalks : root.Walks budget path here reached) (hpath : path ≠ []) :
    ∃ entry, root.get? reached.1 = some entry ∧ ∀ target, entry ≠ .symlink target := by
  induction hwalks with
  | done => contradiction
  | @arrive budget component rest here next reached hstep hrest ih =>
      cases rest with
      | nil =>
          cases hrest
          exact Entry.get?_of_step hstep
      | cons head tail => exact ih (List.cons_ne_nil _ _)
  | @follow budget component rest target here reached hstep hrest ih =>
      cases htarget : target ++ rest with
      | nil =>
          rw [htarget] at hrest
          cases hrest
          obtain ⟨_, hdirectory, _⟩ := except_bind_eq_ok.mp hstep
          obtain ⟨entries, hhere⟩ := Entry.directoryAt_eq_ok.mp hdirectory
          exact ⟨_, hhere, nofun⟩
      | cons head tail => exact ih (htarget ▸ List.cons_ne_nil _ _)

/-! ## Looking and creating -/

/-- Where path lookups start, and how many links they may follow. -/
structure Process (ν : Type u) where
  cwd : Place ν
  linkLimit : Nat

namespace Process

variable (process : Process ν) (root : Entry ν β)

def resolve (path : Path ν) : Except PathError (Place ν) :=
  Prod.fst <$> root.walk process.linkLimit path process.cwd

/-- The place with all links and relative components resolved. -/
def canonicalize (path : Path ν) : Except PathError (Place ν) :=
  if path = [] then .error .notFound else process.resolve root path

/-- The place that the last name of a path stands for, whether or not it exists. -/
def slot (path : Path ν) : Except PathError (Place ν) :=
  match path.getLast? with
  | some (.normal name) => do
      let parent ← process.resolve root path.dropLast
      root.directoryAt parent
      return parent ++ [name]
  | _ => .error .notFound

/-- The entry at a path, without following a link at its end. -/
def lstat (path : Path ν) : Except PathError (Entry ν β) := do
  let place ← match path.getLast? with
    | none => .error .notFound
    | some (.normal _) => process.slot root path
    | some _ => process.resolve root path
  okOr (root.get? place) .notFound

end Process

/-- The name that is missing where a path would continue. -/
def missingName (root : Entry ν β) (here : Place ν) : Component ν → Option ν
  | .normal name => if (root.get? (here ++ [name])).isNone then some name else none
  | _ => none

/-- Create the missing directories of a path one after the other. -/
def createDirectories (linkLimit : Nat) :
    Path ν → Entry ν β → Place ν → Except PathError (Place ν × Entry ν β)
  | [], root, here => .ok (here, root)
  | component :: rest, root, here => do
      root.directoryAt here
      match missingName root here component with
      | some name =>
          createDirectories linkLimit rest (root.put (some (.directory [])) (here ++ [name]))
            (here ++ [name])
      | none =>
          let (next, _) ← root.walk linkLimit [component] here
          root.directoryAt next
          createDirectories linkLimit rest root next

/-- Where a path leads to a directory, no directory has to be created. -/
theorem createDirectories_of_walks {root : Entry ν β} {limit budget : Nat} {path : Path ν}
    {here : Place ν} {reached : Place ν × Nat} (hwalks : root.Walks budget path here reached)
    (hbudget : budget ≤ limit) {entries : List (ν × Entry ν β)}
    (hreached : root.get? reached.1 = some (.directory entries)) :
    createDirectories limit path root here = .ok (reached.1, root) := by
  induction path generalizing budget here with
  | nil =>
      cases hwalks
      rfl
  | cons component rest ih =>
      obtain ⟨siblings, hhere⟩ := hwalks.directory
      obtain ⟨next, left, hfirst, hrest⟩ :=
        Entry.walks_append_iff.mp (show root.Walks budget ([component] ++ rest) here reached
          from hwalks)
      have hnext : ∃ entries, root.get? next = some (.directory entries) := by
        cases rest with
        | nil =>
            cases hrest
            exact ⟨entries, hreached⟩
        | cons head tail => exact hrest.directory
      -- The walk went through the component, so there is nothing to create.
      have hmissing : missingName root here component = none := by
        cases component with
        | normal name =>
            have hfound : (root.get? (here ++ [name])).isSome := by
              obtain ⟨_, hstep⟩ := hfirst.step
              obtain ⟨_, _, hstep⟩ := except_bind_eq_ok.mp hstep
              dsimp only [Entry.kindAt] at hstep
              cases hfound : root.get? (here ++ [name]) with
              | none => simp [hfound] at hstep
              | some entry => rfl
            simp [missingName, Option.isNone_iff_eq_none, Option.isSome_iff_ne_none.mp hfound]
        | _ => rfl
      -- The walk may have spent some of its budget before; a larger one does no harm.
      have hlimit : root.walk limit [component] here = .ok (next, left + (limit - budget)) := by
        have hadd := hfirst.add (limit - budget)
        rw [Nat.add_sub_cancel' hbudget] at hadd
        exact Entry.walk_eq_ok.mpr hadd
      rw [createDirectories, hmissing]
      refine except_bind_eq_ok.mpr ⟨⟨⟩, Entry.directoryAt_eq_ok.mpr ⟨siblings, hhere⟩, ?_⟩
      refine except_bind_eq_ok.mpr ⟨_, hlimit, ?_⟩
      refine except_bind_eq_ok.mpr ⟨⟨⟩, Entry.directoryAt_eq_ok.mpr hnext, ?_⟩
      exact ih hrest (hfirst.left_le.trans hbudget)

/-- Creating directories loses nothing. -/
theorem createDirectories_extends {limit : Nat} {path : Path ν} {root made : Entry ν β}
    {here place : Place ν} (hmade : createDirectories limit path root here = .ok (place, made)) :
    Extends root made := by
  induction path generalizing root here with
  | nil =>
      cases hmade
      exact Extends.refl _
  | cons component rest ih =>
      rw [createDirectories] at hmade
      obtain ⟨_, _, hmade⟩ := except_bind_eq_ok.mp hmade
      cases hmissing : missingName root here component with
      | none =>
          rw [hmissing] at hmade
          obtain ⟨_, _, hmade⟩ := except_bind_eq_ok.mp hmade
          obtain ⟨_, _, hmade⟩ := except_bind_eq_ok.mp hmade
          exact ih hmade
      | some name =>
          rw [hmissing] at hmade
          have habsent : root.get? (here ++ [name]) = none := by
            unfold missingName at hmissing
            split at hmissing
            · split at hmissing
              next hnone =>
                cases hmissing
                exact Option.isNone_iff_eq_none.mp hnone
              · cases hmissing
            · cases hmissing
          exact (extends_put_of_absent habsent).trans (ih hmade)

/-- A tree with only directories added. -/
def OnlyDirectories (before after : Entry ν β) : Prop :=
  ∀ place kind, after.kindAt place = some kind →
    before.kindAt place = some kind ∨ kind = .directory

/-- A directory put into a directory adds directories only. -/
theorem onlyDirectories_put {parent : Place ν} {name : ν} {entry : Entry ν β}
    (hparent : ∃ entries, entry.get? parent = some (.directory entries)) :
    OnlyDirectories entry (entry.put (some (.directory [])) (parent ++ [name])) := by
  intro place kind hkind
  obtain ⟨entries, hparent⟩ := hparent
  by_cases hbelow : parent ++ [name] <+: place
  · obtain ⟨rest, rfl⟩ := hbelow
    rw [Entry.kindAt_append, Entry.get?_put_self hparent] at hkind
    cases rest with
    | nil =>
        cases hkind
        exact Or.inr rfl
    | cons head tail => cases hkind
  by_cases habove : place <+: parent ++ [name]
  · obtain ⟨rest, hrest⟩ := habove
    rw [← hrest, Entry.kindAt_put_of_above] at hkind
    · exact Or.inl hkind
    · rintro rfl
      exact hbelow (by rw [← hrest, List.append_nil])
  · rw [Entry.kindAt, Entry.get?_put_of_disjoint hbelow habove] at hkind
    exact Or.inl hkind

theorem OnlyDirectories.trans {first second third : Entry ν β}
    (hfirst : OnlyDirectories first second) (hsecond : OnlyDirectories second third) :
    OnlyDirectories first third := fun place kind hkind =>
  (hsecond place kind hkind).elim (hfirst place kind) Or.inr

/-- Creating the directories of a path adds directories only. -/
theorem createDirectories_onlyDirectories {limit : Nat} {path : Path ν} {root made : Entry ν β}
    {here place : Place ν} (hmade : createDirectories limit path root here = .ok (place, made)) :
    OnlyDirectories root made := by
  induction path generalizing root here with
  | nil =>
      cases hmade
      exact fun _ _ hkind => Or.inl hkind
  | cons component rest ih =>
      rw [createDirectories] at hmade
      obtain ⟨_, hhere, hmade⟩ := except_bind_eq_ok.mp hmade
      cases hmissing : missingName root here component with
      | none =>
          rw [hmissing] at hmade
          obtain ⟨_, _, hmade⟩ := except_bind_eq_ok.mp hmade
          obtain ⟨_, _, hmade⟩ := except_bind_eq_ok.mp hmade
          exact ih hmade
      | some name =>
          rw [hmissing] at hmade
          exact (onlyDirectories_put (Entry.directoryAt_eq_ok.mp hhere)).trans (ih hmade)

/-- Names that did not exist lead straight down once directories were added for them. -/
theorem OnlyDirectories.walks_names {before after : Entry ν β}
    (honly : OnlyDirectories before after) {budget : Nat} {path : Path ν} {here : Place ν}
    {reached : Place ν × Nat} (hwalks : after.Walks budget path here reached)
    (hnames : ∀ component ∈ path, ∃ name, component = .normal name)
    (habsent : ∀ name rest, path = .normal name :: rest →
      before.kindAt (here ++ [name]) = none) :
    ∃ names, names.length = path.length ∧ reached.1 = here ++ names := by
  induction hwalks with
  | done budget here => exact ⟨[], rfl, (List.append_nil here).symm⟩
  | @arrive budget component rest here next reached hstep hrest ih =>
      obtain ⟨name, rfl⟩ := hnames component List.mem_cons_self
      have habove := habsent name rest rfl
      obtain ⟨_, _, hstep⟩ := except_bind_eq_ok.mp hstep
      dsimp only at hstep
      split at hstep
      · cases hstep
      · cases hstep
      · cases hstep
        obtain ⟨names, hlength, hnext⟩ := ih
          (fun other hother => hnames other (List.mem_cons_of_mem _ hother)) fun below tail _ => by
            rw [Entry.kindAt_append]
            cases hget : before.get? (here ++ [name]) with
            | none => rfl
            | some entry => simp [Entry.kindAt, hget] at habove
        exact ⟨name :: names, congrArg Nat.succ hlength, by rw [hnext, List.append_assoc]; rfl⟩
  | @follow budget component rest target here reached hstep hrest ih =>
      obtain ⟨name, rfl⟩ := hnames component List.mem_cons_self
      have habove := habsent name rest rfl
      obtain ⟨_, _, hstep⟩ := except_bind_eq_ok.mp hstep
      dsimp only at hstep
      split at hstep
      · cases hstep
      next hkind =>
        obtain hbefore | hdirectory := honly _ _ hkind
        · rw [habove] at hbefore
          cases hbefore
        · cases hdirectory
      · cases hstep

section Process

variable {process : Process ν} {root : Entry ν β}

/-- A path resolves where the walk along it arrives. -/
theorem Process.resolve_eq_ok {path : Path ν} {place : Place ν} :
    process.resolve root path = .ok place ↔
      ∃ left, root.Walks process.linkLimit path process.cwd (place, left) := by
  unfold Process.resolve
  rw [except_map_eq_ok]
  constructor
  · rintro ⟨⟨_, left⟩, hwalk, rfl⟩
    exact ⟨left, Entry.walk_eq_ok.mp hwalk⟩
  · rintro ⟨left, hwalks⟩
    exact ⟨_, Entry.walk_eq_ok.mpr hwalks, rfl⟩

/-- A path is canonicalized to where it resolves. -/
theorem Process.canonicalize_eq_ok {path : Path ν} {place : Place ν} :
    process.canonicalize root path = .ok place ↔
      path ≠ [] ∧ process.resolve root path = .ok place := by
  unfold Process.canonicalize
  split <;> simp_all

/-- A path resolves to the same place in an extension. -/
theorem Extends.resolve {after : Entry ν β} (hextends : Extends root after) {path : Path ν}
    {place : Place ν} (hresolve : process.resolve root path = .ok place) :
    process.resolve after path = .ok place := by
  obtain ⟨left, hwalks⟩ := Process.resolve_eq_ok.mp hresolve
  exact Process.resolve_eq_ok.mpr ⟨left, hextends.walks hwalks⟩

/-- In compatible file systems a path resolves to one place. -/
theorem Compatible.resolve {other : Entry ν β} (hcompatible : Compatible root other)
    {path : Path ν} {place found : Place ν} (hresolve : process.resolve root path = .ok place)
    (hother : process.resolve other path = .ok found) : found = place := by
  obtain ⟨_, hwalks⟩ := Process.resolve_eq_ok.mp hresolve
  obtain ⟨_, hothers⟩ := Process.resolve_eq_ok.mp hother
  cases hcompatible.walks hwalks hothers
  rfl

/-- The slot of a path is its last name in the directory that the rest resolves to. -/
theorem Process.slot_eq_ok {path : Path ν} {place : Place ν} :
    process.slot root path = .ok place ↔ ∃ name parent,
      path = path.dropLast ++ [.normal name] ∧ process.resolve root path.dropLast = .ok parent ∧
        (∃ entries, root.get? parent = some (.directory entries)) ∧ place = parent ++ [name] := by
  unfold Process.slot
  rcases List.eq_nil_or_concat path with rfl | ⟨front, last, rfl⟩
  · simp
  · rw [List.concat_eq_append, List.getLast?_concat, List.dropLast_concat]
    cases last with
    | normal name =>
        simp only [except_bind_eq_ok, Entry.directoryAt_eq_ok, List.append_cancel_left_eq,
          List.cons.injEq, Component.normal.injEq, and_true]
        constructor
        · rintro ⟨parent, hparent, _, hdirectory, hplace⟩
          cases hplace
          exact ⟨name, parent, rfl, hparent, hdirectory, rfl⟩
        · rintro ⟨_, parent, rfl, hparent, hdirectory, rfl⟩
          exact ⟨parent, hparent, ⟨⟩, hdirectory, rfl⟩
    | _ => simp

theorem Process.slot_concat {parentPath : Path ν} {name : ν} {place : Place ν} :
    process.slot root (parentPath ++ [.normal name]) = .ok place ↔ ∃ parent,
      process.resolve root parentPath = .ok parent ∧
        (∃ entries, root.get? parent = some (.directory entries)) ∧ place = parent ++ [name] := by
  rw [Process.slot_eq_ok]
  simp

theorem Process.lstat_concat (parentPath : Path ν) (name : ν) :
    process.lstat root (parentPath ++ [.normal name]) =
      process.slot root (parentPath ++ [.normal name]) >>= fun place =>
        okOr (root.get? place) .notFound := by
  unfold Process.lstat
  rw [List.getLast?_concat]

/-- A path that leads somewhere is found. -/
theorem Process.lstat_of_resolve {path : Path ν} (hpath : path ≠ []) {place : Place ν}
    (hresolve : process.resolve root path = .ok place) :
    ∃ entry, process.lstat root path = .ok entry := by
  obtain ⟨left, hwalks⟩ := Process.resolve_eq_ok.mp hresolve
  rcases List.eq_nil_or_concat path with rfl | ⟨front, last, rfl⟩
  · contradiction
  rw [List.concat_eq_append] at *
  cases last with
  | normal name =>
      obtain ⟨parent, _, hfront, hback⟩ := Entry.walks_append_iff.mp hwalks
      have hslot : process.slot root (front ++ [.normal name]) = .ok (parent ++ [name]) :=
        Process.slot_concat.mpr
          ⟨parent, Process.resolve_eq_ok.mpr ⟨_, hfront⟩, hback.directory, rfl⟩
      obtain ⟨_, hstep⟩ := hback.step
      obtain ⟨_, _, hstep⟩ := except_bind_eq_ok.mp hstep
      dsimp only [Entry.kindAt] at hstep
      cases hget : root.get? (parent ++ [name]) with
      | none => simp [hget] at hstep
      | some entry =>
          rw [Process.lstat_concat, hslot]
          exact ⟨entry, by simp [bind, Except.bind, hget, okOr]⟩
  | _ =>
      obtain ⟨entry, hentry, _⟩ := Entry.get?_of_walks hwalks hpath
      refine ⟨entry, ?_⟩
      unfold Process.lstat
      rw [List.getLast?_concat]
      dsimp only
      rw [hresolve]
      simp [bind, Except.bind, hentry, okOr]

end Process

/-! ## One directory -/

/-- A tree that differs from another one only in what one directory lists. -/
structure Arranged (base root : Entry ν β) (parent : Place ν) (listed : ν → Option (Entry ν β)) :
    Prop where
  parent_directory : ∃ entries, root.get? parent = some (.directory entries)
  get?_listed : ∀ name, root.get? (parent ++ [name]) = listed name
  kindAt_beside : ∀ place, ¬ parent <+: place → root.kindAt place = base.kindAt place

theorem Arranged.refl {root : Entry ν β} {parent : Place ν}
    (hparent : ∃ entries, root.get? parent = some (.directory entries)) :
    Arranged root root parent fun name => root.get? (parent ++ [name]) :=
  ⟨hparent, fun _ => rfl, fun _ _ => rfl⟩

section Arranged

variable {base first second : Entry ν β} {parent : Place ν} {listed others : ν → Option (Entry ν β)}

/-- Putting an entry into the parent changes the listing at its name. -/
theorem Arranged.put (harranged : Arranged base first parent listed) (name : ν)
    (value : Option (Entry ν β)) :
    Arranged base (first.put value (parent ++ [name])) parent
      (Function.update listed name value) := by
  obtain ⟨entries, hparent⟩ := harranged.parent_directory
  refine ⟨Entry.get?_put_parent name hparent, fun other => ?_, fun place hbeside => ?_⟩
  · by_cases hother : other = name
    · subst hother
      rw [Entry.get?_put_self hparent, Function.update_self]
    · rw [Function.update_of_ne hother, ← harranged.get?_listed other]
      exact Entry.get?_put_sibling hother [] first
  · have hbelow : ¬ parent ++ [name] <+: place :=
      fun hbegins => hbeside ((List.prefix_append ..).trans hbegins)
    rw [← harranged.kindAt_beside place hbeside]
    by_cases habove : place <+: parent ++ [name]
    · obtain ⟨rest, hrest⟩ := habove
      rw [← hrest]
      refine Entry.kindAt_put_of_above ?_
      rintro rfl
      rw [List.append_nil] at hrest
      exact hbelow (hrest ▸ List.prefix_rfl)
    · rw [Entry.kindAt, Entry.kindAt, Entry.get?_put_of_disjoint hbelow habove]

/-- What is below a listed name is below its entry. -/
theorem Arranged.kindAt_below (harranged : Arranged base first parent listed) (name : ν)
    (rest : Place ν) :
    first.kindAt (parent ++ name :: rest) = (listed name).bind (Entry.kindAt · rest) := by
  rw [← harranged.get?_listed, ← Entry.kindAt_append, List.append_assoc]
  rfl

theorem Arranged.kindAt_parent (harranged : Arranged base first parent listed) :
    first.kindAt parent = some .directory := by
  obtain ⟨entries, hparent⟩ := harranged.parent_directory
  rw [Entry.kindAt, hparent]
  rfl

/-- Nothing is lost when the directory still lists what it listed. -/
theorem Arranged.extends (hfirst : Arranged base first parent listed)
    (hsecond : Arranged base second parent others)
    (hlisted : ∀ name entry, listed name = some entry → others name = some entry) :
    Extends first second := by
  intro place kind hkind
  by_cases hbelow : parent <+: place
  · obtain ⟨rest, rfl⟩ := hbelow
    cases rest with
    | nil =>
        rw [List.append_nil, hfirst.kindAt_parent] at hkind
        rw [List.append_nil, hsecond.kindAt_parent, hkind]
    | cons name rest =>
        rw [hfirst.kindAt_below] at hkind
        obtain ⟨entry, hentry, hkind⟩ := Option.bind_eq_some_iff.mp hkind
        rw [hsecond.kindAt_below, hlisted name entry hentry]
        exact hkind
  · rw [hsecond.kindAt_beside place hbelow, ← hfirst.kindAt_beside place hbelow, hkind]

/-- Two arrangements agree when what both list is the same. -/
theorem Arranged.compatible (hfirst : Arranged base first parent listed)
    (hsecond : Arranged base second parent others)
    (hlisted : ∀ name entry other, listed name = some entry → others name = some other →
      entry = other) :
    Compatible first second := by
  intro place kind other hkind hother
  by_cases hbelow : parent <+: place
  · obtain ⟨rest, rfl⟩ := hbelow
    cases rest with
    | nil =>
        rw [List.append_nil, hfirst.kindAt_parent] at hkind
        rw [List.append_nil, hsecond.kindAt_parent] at hother
        exact Option.some.inj (hkind.symm.trans hother)
    | cons name rest =>
        rw [hfirst.kindAt_below] at hkind
        rw [hsecond.kindAt_below] at hother
        obtain ⟨entry, hentry, hkind⟩ := Option.bind_eq_some_iff.mp hkind
        obtain ⟨found, hfound, hother⟩ := Option.bind_eq_some_iff.mp hother
        obtain rfl := hlisted name entry found hentry hfound
        exact Option.some.inj (hkind.symm.trans hother)
  · rw [hfirst.kindAt_beside place hbelow] at hkind
    rw [hsecond.kindAt_beside place hbelow] at hother
    exact Option.some.inj (hkind.symm.trans hother)

end Arranged

end CfIntegration.FileSystem
