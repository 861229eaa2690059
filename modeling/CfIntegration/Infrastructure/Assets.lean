import CfIntegration.Foundation.DirectoryTree
import CfIntegration.Foundation.Interleaving
import Mathlib.Logic.Function.Basic

/-! # Embedded runtime assets

A call stages the embedded files in a temporary directory of its own, renames that
directory to the versioned destination and validates what it finds there. Calls on one
destination interleave step by step, and each may fail or crash at any of its steps.
-/

namespace CfIntegration.Infrastructure.Assets

open Interleaving

abbrev Bytes := List UInt8

structure EmbeddedAsset where
  path : List String
  contents : Bytes
  deriving DecidableEq

def completeMarker : List String := [".complete"]

/-- The assets embedded in the binary, and its version. -/
structure AssetSet where
  assets : List EmbeddedAsset
  version : Bytes
  version_ne_nil : version ≠ []
  nodup_path : (assets.map EmbeddedAsset.path).Nodup
  marker_notMem : completeMarker ∉ assets.map EmbeddedAsset.path

/-- What `write_asset_tree` writes, in order. -/
def AssetSet.files (assets : AssetSet) : List EmbeddedAsset :=
  assets.assets ++ [⟨completeMarker, assets.version⟩]

/-- What is found at the destination path. -/
structure Entry where
  /-- The path exists; a dangling link does not. -/
  visible : Bool
  /-- Only an empty directory is replaced by a rename. -/
  emptyDirectory : Bool
  /-- The bytes read at a path below. -/
  read : List String → Option Bytes
  visible_of_emptyDirectory : emptyDirectory = true → visible = true
  read_of_emptyDirectory : emptyDirectory = true → ∀ path, read path = none

/-- Every embedded path with its bytes, and the marker. -/
structure AssetSet.Complete (assets : AssetSet) (entry : Entry) : Prop where
  marker : entry.read completeMarker = some assets.version
  asset : ∀ asset ∈ assets.assets, entry.read asset.path = some asset.contents

/-- A renamed directory. -/
def Entry.ofTree (tree : Tree Bytes) : Entry where
  visible := true
  emptyDirectory := match tree with
    | .directory [] => true
    | _ => false
  read := Tree.contentAt? (some tree)
  visible_of_emptyDirectory _ := rfl
  read_of_emptyDirectory hempty path := by
    rcases tree with _ | _ | _ | (_ | _) <;> cases hempty
    cases path <;> rfl

/-! ## The steps of a call -/

/-- Where `validate_materialized_assets` is called. -/
inductive Purpose where
  | reuse
  | race
  | result
  deriving DecidableEq

inductive Stage where
  | checking
  | creatingParent
  | creatingTemporary
  | writing (rest : List EmbeddedAsset)
  /-- The file is open, and so many of its bytes are written. -/
  | appending (file : EmbeddedAsset) (count : Nat) (rest : List EmbeddedAsset)
  | activating
  /-- The rename failed. -/
  | rechecking
  | readingMarker (purpose : Purpose)
  | validating (purpose : Purpose) (rest : List EmbeddedAsset)
  /-- The tree was published, by this call or another one, or else staging failed. -/
  | checkingTemporary (published : Bool)
  | removing (published : Bool)
  | returned
  | failed
  | crashed
  deriving DecidableEq

def Stage.running : Stage → Bool
  | .returned | .failed | .crashed => false
  | _ => true

def Purpose.valid : Purpose → Stage
  | .reuse | .result => .returned
  | .race => .checkingTemporary true

def Purpose.invalid : Purpose → Stage
  | .reuse | .result => .failed
  | .race => .checkingTemporary false

/-- After the temporary directory is removed, or could not be. -/
def concluded (published : Bool) : Stage :=
  if published then .readingMarker .result else .failed

/-- Where an error of the file system leads; `exists` has none. -/
def Stage.onError : Stage → Option Stage
  | .creatingParent => some .failed
  | .creatingTemporary | .writing _ | .appending _ _ _ => some (.checkingTemporary false)
  | .activating => some .rechecking
  | .readingMarker purpose | .validating purpose _ => some purpose.invalid
  | .removing published => some (concluded published)
  | _ => none

/-- Each call has a temporary directory of its own, under a random name. -/
structure State (Call : Type) where
  destination : Option Entry
  temporary : Call → Option (Tree Bytes)
  stage : Call → Stage

inductive Event (Call : Type) where
  /-- The next operation of the call. -/
  | proceed (call : Call)
  /-- A write of so many bytes, as the operating system accepts them. -/
  | append (call : Call) (count : Nat)
  /-- A part of `remove_dir_all`, and what is left. -/
  | remove (call : Call) (left : Option (Tree Bytes))
  | fail (call : Call)
  | crash (call : Call)

section Calls

variable {Call : Type} [DecidableEq Call]

def State.moved (state : State Call) (call : Call) (temporary : Option (Tree Bytes))
    (stage : Stage) : State Call :=
  { state with
    temporary := Function.update state.temporary call temporary
    stage := Function.update state.stage call stage }

omit [DecidableEq Call] in
def State.read (state : State Call) (path : List String) : Option Bytes :=
  state.destination.bind fun entry => entry.read path

variable (assets : AssetSet)

def proceed (state : State Call) (call : Call) : Option (State Call) :=
  let temporary := state.temporary call
  match state.stage call with
  | .checking =>
      some (state.moved call temporary
        (if state.destination.any Entry.visible then .readingMarker .reuse else .creatingParent))
  | .creatingParent => some (state.moved call temporary .creatingTemporary)
  | .creatingTemporary =>
      match temporary with
      | none => some (state.moved call (some (.directory [])) (.writing assets.files))
      | some _ => none
  | .writing [] => some (state.moved call temporary .activating)
  | .writing (file :: rest) =>
      (Tree.write file.path [] temporary).map fun tree =>
        state.moved call (some tree) (.appending file 0 rest)
  | .appending file count rest =>
      if count = file.contents.length then some (state.moved call temporary (.writing rest))
      else none
  | .activating =>
      match temporary, state.destination.all Entry.emptyDirectory with
      | some tree, true =>
          some { state.moved call none (.checkingTemporary true) with
            destination := some (.ofTree tree) }
      | _, _ => some (state.moved call temporary .rechecking)
  | .rechecking =>
      some (state.moved call temporary
        (if state.destination.any Entry.visible then .readingMarker .race
        else .checkingTemporary false))
  | .readingMarker purpose =>
      -- A marker that cannot be read counts as an empty one.
      some (state.moved call temporary
        (if (state.read completeMarker).getD [] = assets.version then
          .validating purpose assets.assets
        else purpose.invalid))
  | .validating purpose [] => some (state.moved call temporary purpose.valid)
  | .validating purpose (asset :: rest) =>
      some (state.moved call temporary
        (if state.read asset.path = some asset.contents then .validating purpose rest
        else purpose.invalid))
  | .checkingTemporary published =>
      some (state.moved call temporary
        (if temporary.isSome then .removing published else concluded published))
  | .removing _ | .returned | .failed | .crashed => none

def step (state : State Call) : Event Call → Option (State Call)
  | .proceed call => proceed assets state call
  | .append call count =>
      match state.stage call with
      | .appending file written rest =>
          if written < count ∧ count ≤ file.contents.length then
            (Tree.write file.path (file.contents.take count) (state.temporary call)).map
              fun tree => state.moved call (some tree) (.appending file count rest)
          else none
      | _ => none
  | .remove call left =>
      match state.stage call with
      | .removing published =>
          some (state.moved call left (if left.isSome then .removing published
            else concluded published))
      | _ => none
  | .fail call => (state.stage call).onError.map (state.moved call (state.temporary call))
  | .crash call =>
      if (state.stage call).running then some (state.moved call (state.temporary call) .crashed)
      else none

/-! ## What every run keeps -/

/-- Nothing was there that `exists` would have reported. -/
def Passed (before : Option Entry) : Prop := ∀ entry, before = some entry → entry.visible = false

/-- The files written so far. -/
def Holds (files : List EmbeddedAsset) (tree : Tree Bytes) : Prop :=
  ∀ file ∈ files, Tree.contentAt? (some tree) file.path = some file.contents

def Published (destination : Option Entry) : Prop :=
  ∃ entry, destination = some entry ∧ assets.Complete entry

/-- What a call has seen of the destination, and written in its temporary directory. -/
def Progress (before destination : Option Entry) (temporary : Option (Tree Bytes)) :
    Stage → Prop
  | .creatingParent | .creatingTemporary => Passed before
  | .writing rest => Passed before ∧ ∃ written tree, temporary = some tree ∧
      assets.files = written ++ rest ∧ Holds written tree
  | .appending file count rest => Passed before ∧ ∃ written tree, temporary = some tree ∧
      assets.files = written ++ file :: rest ∧ Holds written tree ∧
      Tree.contentAt? (some tree) file.path = some (file.contents.take count)
  | .activating => Passed before ∧ ∃ tree, temporary = some tree ∧ Holds assets.files tree
  | .validating _ rest => ∃ entry checked, destination = some entry ∧
      entry.read completeMarker = some assets.version ∧ assets.assets = checked ++ rest ∧
      ∀ asset ∈ checked, entry.read asset.path = some asset.contents
  | .checkingTemporary true | .removing true | .returned => Published assets destination
  | .checking | .rechecking | .readingMarker _ | .checkingTemporary false | .removing false
  | .failed | .crashed => True

structure Consistent (before : Option Entry) (state : State Call) : Prop where
  destination : state.destination = before ∨ before = none ∧ Published assets state.destination
  progress : ∀ call, Progress assets before state.destination (state.temporary call)
    (state.stage call)

variable {assets} {before : Option Entry} {state next : State Call} {call : Call}

theorem nodup_path_files : (assets.files.map EmbeddedAsset.path).Nodup := by
  rw [AssetSet.files, List.map_append, List.nodup_append]
  refine ⟨assets.nodup_path, List.pairwise_singleton _ _, fun path hpath marker hmarker => ?_⟩
  rw [List.mem_singleton.mp hmarker]
  rintro rfl
  exact assets.marker_notMem hpath

theorem path_ne_of_mem_written {written rest : List EmbeddedAsset} {file other : EmbeddedAsset}
    (hfiles : assets.files = written ++ file :: rest) (hother : other ∈ written) :
    other.path ≠ file.path := by
  have hnodup := @nodup_path_files assets
  rw [hfiles, List.map_append, List.map_cons, List.nodup_append] at hnodup
  exact hnodup.2.2 _ (List.mem_map_of_mem hother) _ List.mem_cons_self

theorem Holds.write {written rest : List EmbeddedAsset} {file : EmbeddedAsset}
    {tree next : Tree Bytes} {contents : Bytes} (hholds : Holds written tree)
    (hfiles : assets.files = written ++ file :: rest)
    (hwrite : Tree.write file.path contents (some tree) = some next) : Holds written next :=
  fun other hother => by
    rw [Tree.contentAt?_write_of_ne (path_ne_of_mem_written hfiles hother) hwrite]
    exact hholds other hother

/-- A tree that holds every file is a complete entry. -/
theorem complete_ofTree {tree : Tree Bytes} (hholds : Holds assets.files tree) :
    assets.Complete (.ofTree tree) :=
  ⟨hholds ⟨completeMarker, assets.version⟩ (List.mem_append_right _ List.mem_cons_self),
    fun asset hasset => hholds asset (List.mem_append_left _ hasset)⟩

/-- A complete entry is no empty directory. -/
theorem AssetSet.Complete.emptyDirectory {entry : Entry} (hcomplete : assets.Complete entry) :
    entry.emptyDirectory = false := by
  refine Bool.eq_false_iff.mpr fun hempty => ?_
  have hmarker := hcomplete.marker
  rw [entry.read_of_emptyDirectory hempty] at hmarker
  cases hmarker

omit [DecidableEq Call] in
/-- A rename replaces nothing that was there. -/
theorem Consistent.destination_eq_none (hstate : Consistent assets before state)
    (hpassed : Passed before) (hempty : state.destination.all Entry.emptyDirectory = true) :
    state.destination = none ∧ before = none := by
  rcases hstate.destination with hsame | ⟨_, entry, hentry, hcomplete⟩
  · cases hbefore : before with
    | none => exact ⟨hsame.trans hbefore, rfl⟩
    | some entry =>
        rw [hsame, hbefore] at hempty
        have hvisible := entry.visible_of_emptyDirectory hempty
        rw [hpassed entry hbefore] at hvisible
        cases hvisible
  · rw [hentry] at hempty
    exact absurd (hempty.symm.trans hcomplete.emptyDirectory) Bool.noConfusion

theorem Consistent.moved (hstate : Consistent assets before state)
    {temporary : Option (Tree Bytes)} {stage : Stage}
    (hprogress : Progress assets before state.destination temporary stage) :
    Consistent assets before (state.moved call temporary stage) := by
  refine ⟨hstate.destination, fun other => ?_⟩
  by_cases hother : other = call
  · subst hother
    simpa only [State.moved, Function.update_self] using hprogress
  · simpa only [State.moved, Function.update_of_ne hother] using hstate.progress other

theorem Progress.publish {temporary : Option (Tree Bytes)} {stage : Stage} {entry : Entry}
    (hprogress : Progress assets before none temporary stage) :
    Progress assets before (some entry) temporary stage := by
  cases stage with
  | validating purpose rest =>
      obtain ⟨_, _, hnone, _⟩ := hprogress
      cases hnone
  | checkingTemporary published | removing published =>
      cases published with
      | true =>
          obtain ⟨_, hnone, _⟩ := hprogress
          cases hnone
      | false => trivial
  | returned =>
      obtain ⟨_, hnone, _⟩ := hprogress
      cases hnone
  | _ => exact hprogress

theorem Consistent.publish (hstate : Consistent assets before state) {tree : Tree Bytes}
    (hpassed : Passed before) (hempty : state.destination.all Entry.emptyDirectory = true)
    (hholds : Holds assets.files tree) :
    Consistent assets before { state.moved call none (.checkingTemporary true) with
      destination := some (.ofTree tree) } := by
  obtain ⟨hnone, hbefore⟩ := hstate.destination_eq_none hpassed hempty
  have hpublished : Published assets (some (.ofTree tree)) := ⟨_, rfl, complete_ofTree hholds⟩
  refine ⟨.inr ⟨hbefore, hpublished⟩, fun other => ?_⟩
  by_cases hother : other = call
  · subst hother
    simp only [State.moved, Function.update_self]
    exact hpublished
  · have hprogress := hstate.progress other
    rw [hnone] at hprogress
    simpa only [State.moved, Function.update_of_ne hother] using hprogress.publish

theorem Purpose.progress_invalid (purpose : Purpose) {destination : Option Entry}
    {temporary : Option (Tree Bytes)} :
    Progress assets before destination temporary purpose.invalid := by
  cases purpose <;> trivial

theorem Purpose.progress_valid (purpose : Purpose) {destination : Option Entry}
    {temporary : Option (Tree Bytes)}
    (hpublished : Published assets destination) :
    Progress assets before destination temporary purpose.valid := by
  cases purpose <;> exact hpublished

/-- A call that has concluded asks nothing of the directories. -/
theorem progress_concluded (published : Bool) {destination : Option Entry}
    {temporary : Option (Tree Bytes)} :
    Progress assets before destination temporary (concluded published) := by
  cases published <;> trivial

theorem progress_onError {stage error : Stage} {destination : Option Entry}
    {temporary : Option (Tree Bytes)}
    (herror : stage.onError = some error) :
    Progress assets before destination temporary error := by
  cases stage <;> cases herror
  case readingMarker purpose | validating purpose _ => exact purpose.progress_invalid
  case removing published => exact progress_concluded published
  all_goals trivial

omit [DecidableEq Call] in
/-- A call that finds nothing to reuse may replace nothing either. -/
theorem Consistent.passed (hstate : Consistent assets before state)
    (hvisible : ¬ state.destination.any Entry.visible = true) : Passed before := by
  rintro entry rfl
  rcases hstate.destination with hsame | ⟨hnone, _⟩
  · rw [hsame] at hvisible
    exact Bool.eq_false_iff.mpr hvisible
  · cases hnone

omit [DecidableEq Call] in
theorem read_eq_some {path : List String} {contents : Bytes}
    (hread : state.read path = some contents) :
    ∃ entry, state.destination = some entry ∧ entry.read path = some contents :=
  Option.bind_eq_some_iff.mp hread

/-! ## Progress of a stage -/

section Progress

variable {destination : Option Entry} {temporary : Option (Tree Bytes)}

theorem Progress.activating (hprogress : Progress assets before destination temporary
    (.writing [])) : Progress assets before destination temporary .activating := by
  obtain ⟨hpassed, written, tree, htemporary, hfiles, hholds⟩ := hprogress
  rw [List.append_nil] at hfiles
  exact ⟨hpassed, tree, htemporary, hfiles ▸ hholds⟩

theorem Progress.opened {file : EmbeddedAsset} {rest : List EmbeddedAsset} {opened : Tree Bytes}
    (hprogress : Progress assets before destination temporary (.writing (file :: rest)))
    (hwrite : Tree.write file.path [] temporary = some opened) :
    Progress assets before destination (some opened) (.appending file 0 rest) := by
  obtain ⟨hpassed, written, tree, htemporary, hfiles, hholds⟩ := hprogress
  rw [htemporary] at hwrite
  exact ⟨hpassed, written, opened, rfl, hfiles, hholds.write hfiles hwrite,
    Tree.contentAt?_write_self hwrite⟩

/-- A file that is whole joins those that were written. -/
theorem Progress.whole {file : EmbeddedAsset} {rest : List EmbeddedAsset}
    (hprogress : Progress assets before destination temporary
      (.appending file file.contents.length rest)) :
    Progress assets before destination temporary (.writing rest) := by
  obtain ⟨hpassed, written, tree, htemporary, hfiles, hholds, hcontent⟩ := hprogress
  rw [List.take_length] at hcontent
  refine ⟨hpassed, written ++ [file], tree, htemporary, ?_, ?_⟩
  · rw [hfiles, List.append_assoc, List.singleton_append]
  · exact List.forall_mem_append.mpr ⟨hholds, List.forall_mem_singleton.mpr hcontent⟩

omit [DecidableEq Call] in
/-- A marker that is the version was read: the version is not empty. -/
theorem progress_marked {purpose : Purpose}
    (hmarker : (state.read completeMarker).getD [] = assets.version) :
    Progress assets before state.destination temporary (.validating purpose assets.assets) := by
  have hread : state.read completeMarker = some assets.version := by
    cases hread : state.read completeMarker with
    | none =>
        rw [hread] at hmarker
        exact absurd hmarker.symm assets.version_ne_nil
    | some contents => simpa [hread] using hmarker
  obtain ⟨entry, hentry, hmarker⟩ := read_eq_some hread
  exact ⟨entry, [], hentry, hmarker, rfl, nofun⟩

theorem Progress.validated {purpose : Purpose}
    (hprogress : Progress assets before destination temporary (.validating purpose [])) :
    Progress assets before destination temporary purpose.valid := by
  obtain ⟨entry, checked, hentry, hmarker, hassets, hchecked⟩ := hprogress
  rw [List.append_nil] at hassets
  exact purpose.progress_valid ⟨entry, hentry, hmarker, hassets ▸ hchecked⟩

omit [DecidableEq Call] in
theorem Progress.checked {purpose : Purpose} {asset : EmbeddedAsset} {rest : List EmbeddedAsset}
    (hprogress : Progress assets before state.destination temporary
      (.validating purpose (asset :: rest)))
    (hread : state.read asset.path = some asset.contents) :
    Progress assets before state.destination temporary (.validating purpose rest) := by
  obtain ⟨entry, checked, hentry, hmarker, hassets, hchecked⟩ := hprogress
  obtain ⟨found, hfound, hcontents⟩ := read_eq_some hread
  obtain rfl : entry = found := Option.some.inj (hentry.symm.trans hfound)
  refine ⟨entry, checked ++ [asset], hentry, hmarker, ?_, ?_⟩
  · rw [hassets, List.append_assoc, List.singleton_append]
  · exact List.forall_mem_append.mpr ⟨hchecked, List.forall_mem_singleton.mpr hcontents⟩

end Progress

/-- A step of a call keeps what is published whole. -/
theorem proceed_consistent (hstate : Consistent assets before state)
    (hstep : proceed assets state call = some next) : Consistent assets before next := by
  have hprogress := hstate.progress call
  dsimp only [proceed] at hstep
  -- One case for each stage a call can be in, in the order of the definition.
  split at hstep <;> rename_i hstage <;> rw [hstage] at hprogress
  case h_1 =>
    cases hstep
    refine hstate.moved ?_
    split
    · trivial
    next hvisible => exact hstate.passed hvisible
  case h_2 =>
    cases hstep
    exact hstate.moved hprogress
  case h_3 =>
    split at hstep
    · cases hstep
      exact hstate.moved ⟨hprogress, [], _, rfl, rfl, nofun⟩
    · cases hstep
  case h_4 =>
    cases hstep
    exact hstate.moved hprogress.activating
  case h_5 =>
    obtain ⟨opened, hwrite, rfl⟩ := Option.map_eq_some_iff.mp hstep
    exact hstate.moved (hprogress.opened hwrite)
  case h_6 =>
    split at hstep
    next hwhole =>
      cases hstep
      rw [hwhole] at hprogress
      exact hstate.moved hprogress.whole
    · cases hstep
  case h_7 =>
    obtain ⟨hpassed, tree, htemporary, hholds⟩ := hprogress
    rw [htemporary] at hstep
    split at hstep
    -- The rename finds no destination and publishes the temporary directory.
    next hsome hempty =>
      cases hsome
      cases hstep
      exact hstate.publish hpassed hempty hholds
    next =>
      cases hstep
      exact hstate.moved trivial
  case h_8 =>
    cases hstep
    refine hstate.moved ?_
    split <;> trivial
  case h_9 purpose =>
    cases hstep
    refine hstate.moved ?_
    split
    next hmarker => exact progress_marked hmarker
    next => exact purpose.progress_invalid
  case h_10 =>
    cases hstep
    exact hstate.moved hprogress.validated
  case h_11 purpose _ _ =>
    cases hstep
    refine hstate.moved ?_
    split
    next hread => exact hprogress.checked hread
    next => exact purpose.progress_invalid
  case h_12 published =>
    cases hstep
    refine hstate.moved ?_
    split
    · cases published with
      | true => exact hprogress
      | false => trivial
    · exact progress_concluded published
  all_goals cases hstep

/-- So does every event, a crash among them. -/
theorem step_consistent {event : Event Call} (hstate : Consistent assets before state)
    (hstep : step assets state event = some next) : Consistent assets before next := by
  cases event with
  | proceed call => exact proceed_consistent hstate hstep
  | append call count =>
      have hprogress := hstate.progress call
      simp only [step] at hstep
      split at hstep
      next file written rest hstage =>
        rw [hstage] at hprogress
        obtain ⟨hpassed, before, tree, htemporary, hfiles, hholds, -⟩ := hprogress
        split at hstep
        · rw [htemporary] at hstep
          -- Only the open file grows; the files before it are whole and stay so.
          obtain ⟨appended, hwrite, rfl⟩ := Option.map_eq_some_iff.mp hstep
          exact hstate.moved ⟨hpassed, before, appended, rfl, hfiles, hholds.write hfiles hwrite,
            Tree.contentAt?_write_self hwrite⟩
        · cases hstep
      next => cases hstep
  | remove call left =>
      have hprogress := hstate.progress call
      simp only [step] at hstep
      split at hstep
      next published hstage =>
        rw [hstage] at hprogress
        cases hstep
        refine hstate.moved ?_
        split
        · cases published with
          | true => exact hprogress
          | false => trivial
        · exact progress_concluded published
      next => cases hstep
  | fail call =>
      obtain ⟨error, herror, rfl⟩ := Option.map_eq_some_iff.mp hstep
      exact hstate.moved (progress_onError herror)
  | crash call =>
      simp only [step] at hstep
      split at hstep
      · cases hstep
        exact hstate.moved trivial
      · cases hstep

/-! ## The temporary directory -/

/-- The stages between the creation of the temporary directory and its removal. -/
def Stage.staged : Stage → Bool
  | .writing _ | .appending _ _ _ | .activating | .rechecking | .readingMarker .race
  | .validating .race _ | .checkingTemporary _ | .removing _ | .crashed => true
  | _ => false

/-- No temporary directory outside these stages. -/
def Clean (state : State Call) (call : Call) : Prop :=
  (state.stage call).staged = false → state.temporary call = none

/-- The removal of the temporary directory does not fail. -/
def RemovalSucceeds (call : Call) (state : State Call) (event : Event Call) : Prop :=
  event = .fail call → ∀ published, state.stage call ≠ .removing published

variable {other : Call}

/-- A move keeps a call clean unless it leaves the staging directory behind. -/
theorem Clean.moved (hclean : Clean state call) {temporary : Option (Tree Bytes)} {stage : Stage}
    (htemporary : Clean state other → stage.staged = false → temporary = none) :
    Clean (state.moved other temporary stage) call := by
  intro hstaged
  by_cases hother : call = other
  · subst hother
    simp only [State.moved, Function.update_self] at hstaged ⊢
    exact htemporary hclean hstaged
  · simp only [State.moved, Function.update_of_ne hother] at hstaged ⊢
    exact hclean hstaged

/-- A validation ends in a stage without a temporary directory only if it was in one. -/
theorem staged_of_purpose {purpose : Purpose}
    (hstaged : purpose.valid.staged = false ∨ purpose.invalid.staged = false) (stage : Stage)
    (hstage : stage = .readingMarker purpose ∨ ∃ rest, stage = .validating purpose rest) :
    stage.staged = false := by
  cases purpose with
  | reuse | result => rcases hstage with rfl | ⟨_, rfl⟩ <;> rfl
  | race => rcases hstaged with hstaged | hstaged <;> cases hstaged

theorem staged_validating (purpose : Purpose) (rest : List EmbeddedAsset) :
    (Stage.validating purpose rest).staged = (Stage.readingMarker purpose).staged := by
  cases purpose <;> rfl

theorem staged_of_onError {stage error : Stage}
    (hremoving : ∀ published, stage ≠ .removing published) (herror : stage.onError = some error)
    (hstaged : error.staged = false) : stage.staged = false := by
  cases stage with
  | creatingParent => rfl
  | creatingTemporary | writing | appending | activating =>
      cases herror
      cases hstaged
  | readingMarker purpose =>
      cases herror
      exact staged_of_purpose (.inr hstaged) _ (.inl rfl)
  | validating purpose rest =>
      cases herror
      exact staged_of_purpose (.inr hstaged) _ (.inr ⟨_, rfl⟩)
  | removing published => exact absurd rfl (hremoving published)
  | checking | rechecking | checkingTemporary | returned | failed | crashed => cases herror

/-- A step that succeeds keeps every call clean. -/
theorem proceed_clean (hclean : Clean state call) (hstep : proceed assets state other = some next) :
    Clean next call := by
  dsimp only [proceed] at hstep
  -- One case for each stage the other call can be in, in the order of the definition.
  split at hstep
  case h_1 hstage | h_2 hstage =>
    cases hstep
    exact hclean.moved fun hother _ => hother (by rw [hstage]; rfl)
  case h_3 hstage =>
    split at hstep
    · cases hstep
      exact hclean.moved nofun
    · cases hstep
  case h_4 hstage =>
    cases hstep
    exact hclean.moved nofun
  case h_5 file rest hstage =>
    obtain ⟨opened, _, rfl⟩ := Option.map_eq_some_iff.mp hstep
    exact hclean.moved nofun
  case h_6 file count rest hstage =>
    split at hstep
    · cases hstep
      exact hclean.moved nofun
    · cases hstep
  case h_7 hstage =>
    split at hstep
    · cases hstep
      exact hclean.moved fun _ _ => rfl
    · cases hstep
      exact hclean.moved nofun
  case h_8 hstage =>
    cases hstep
    refine hclean.moved fun _ hstaged => ?_
    split at hstaged <;> cases hstaged
  case h_9 purpose hstage =>
    cases hstep
    refine hclean.moved fun hother hstaged => hother ?_
    split at hstaged
    · rwa [hstage, ← staged_validating purpose assets.assets]
    · exact staged_of_purpose (.inr hstaged) _ (.inl hstage)
  case h_10 purpose hstage =>
    cases hstep
    exact hclean.moved fun hother hstaged =>
      hother (staged_of_purpose (.inl hstaged) _ (.inr ⟨_, hstage⟩))
  case h_11 purpose asset rest hstage =>
    cases hstep
    refine hclean.moved fun hother hstaged => hother ?_
    split at hstaged
    · rwa [hstage, staged_validating purpose _, ← staged_validating purpose rest]
    · exact staged_of_purpose (.inr hstaged) _ (.inr ⟨_, hstage⟩)
  case h_12 published hstage =>
    cases hstep
    refine hclean.moved fun _ hstaged => ?_
    split at hstaged
    · cases hstaged
    next habsent => simpa using habsent
  all_goals cases hstep

theorem step_clean {event : Event Call} (hallowed : RemovalSucceeds call state event)
    (hclean : Clean state call) (hstep : step assets state event = some next) :
    Clean next call := by
  cases event with
  | proceed other => exact proceed_clean hclean hstep
  | append other count =>
      simp only [step] at hstep
      split at hstep
      · split at hstep
        · obtain ⟨appended, _, rfl⟩ := Option.map_eq_some_iff.mp hstep
          exact hclean.moved nofun
        · cases hstep
      · cases hstep
  | remove other left =>
      simp only [step] at hstep
      split at hstep
      · cases hstep
        refine hclean.moved fun _ hstaged => ?_
        split at hstaged
        · cases hstaged
        next habsent => simpa using habsent
      · cases hstep
  | fail other =>
      obtain ⟨error, herror, rfl⟩ := Option.map_eq_some_iff.mp hstep
      by_cases hother : call = other
      · subst hother
        exact hclean.moved fun _ hstaged =>
          hclean (staged_of_onError (hallowed rfl) herror hstaged)
      · intro hstaged
        simp only [State.moved, Function.update_of_ne hother] at hstaged ⊢
        exact hclean hstaged
  | crash other =>
      simp only [step] at hstep
      split at hstep
      · cases hstep
        exact hclean.moved nofun
      · cases hstep

/-! ## Every interleaving -/

omit [DecidableEq Call] in
/-- No call has begun. -/
structure Initial (state : State Call) : Prop where
  temporary : ∀ call, state.temporary call = none
  stage : ∀ call, state.stage call = .checking

omit [DecidableEq Call] in
/-- Before any call the destination is as it was. -/
theorem initial_consistent (hinitial : Initial state) :
    Consistent assets state.destination state :=
  ⟨.inl rfl, fun call => by rw [hinitial.stage call]; trivial⟩

/-- The destination appears only whole and stays as it is; a call returns only with a whole one,
and not at all with another one that was there; and only a crash, or a failed removal, leaves a
temporary directory behind. -/
theorem materializeRuntimeAssets_atomic (assets : AssetSet) {start final : State Call}
    {events : List (Event Call)} (hinitial : Initial start)
    (hrun : run (step assets) start events = some final) :
    (final.destination = start.destination ∨
      start.destination = none ∧ Published assets final.destination) ∧
    (∀ call, final.stage call = .returned → Published assets final.destination) ∧
    (∀ entry, start.destination = some entry → ¬ assets.Complete entry →
      final.destination = some entry ∧ ∀ call, (final.stage call).running = false →
        final.stage call = .failed ∨ final.stage call = .crashed) ∧
    ∀ call, Along (step assets) (RemovalSucceeds call) start events →
      (final.stage call = .returned ∨ final.stage call = .failed) →
        final.temporary call = none := by
  have hfinal : Consistent assets start.destination final :=
    run_invariant (fun _ _ _ => step_consistent) (initial_consistent hinitial) hrun
  have hreturned : ∀ call, final.stage call = .returned → Published assets final.destination :=
    fun call hcall => by
      have hprogress := hfinal.progress call
      rwa [hcall] at hprogress
  refine ⟨hfinal.destination, hreturned, fun entry hentry hpartial => ?_,
    fun call halong hcall => ?_⟩
  · have hkept : final.destination = some entry := by
      rcases hfinal.destination with hsame | ⟨hnone, _⟩
      · exact hsame.trans hentry
      · cases hnone.symm.trans hentry
    refine ⟨hkept, fun call hrunning => ?_⟩
    cases hcall : final.stage call with
    | returned =>
        obtain ⟨found, hfound, hcomplete⟩ := hreturned call hcall
        rw [Option.some.inj (hkept.symm.trans hfound)] at hpartial
        exact absurd hcomplete hpartial
    | failed => exact .inl rfl
    | crashed => exact .inr rfl
    | _ =>
        rw [hcall] at hrunning
        cases hrunning
  · have hstart : Clean start call := fun _ => hinitial.temporary call
    refine run_invariant_along (fun _ _ _ => step_clean) halong hstart hrun ?_
    rcases hcall with hcall | hcall <;> rw [hcall] <;> rfl

end Calls

def sampleAssets : AssetSet where
  assets := [⟨["Cargo.toml"], [91]⟩]
  version := [48]
  version_ne_nil := nofun
  nodup_path := List.pairwise_singleton _ _
  marker_notMem := by decide

def nothingPublished : State Bool where
  destination := none
  temporary _ := none
  stage _ := .checking

/-- Everything before the rename. -/
def staging (call : Bool) : List (Event Bool) :=
  [.proceed call, .proceed call, .proceed call, .proceed call, .append call 1, .proceed call,
    .proceed call, .append call 1, .proceed call, .proceed call]

/-- Both calls stage their trees, and the second rename fails. -/
def renameRace : List (Event Bool) :=
  staging false ++ staging true ++ List.replicate 5 (.proceed false) ++
    List.replicate 6 (.proceed true) ++ [.remove true none] ++ List.replicate 3 (.proceed true)

theorem materializeRuntimeAssets_atomic_race :
    ∃ final, run (step sampleAssets) nothingPublished renameRace = some final ∧
      (final.stage true = .returned ∧ final.stage false = .returned) ∧
      Published sampleAssets final.destination := by
  have hrun : (run (step sampleAssets) nothingPublished renameRace).any (fun final =>
      decide (final.stage true = .returned ∧ final.stage false = .returned)) = true := by
    decide +kernel
  obtain ⟨final, hfinal, hstages⟩ := (Option.any_eq_true _ _).mp hrun
  have hreturned := of_decide_eq_true hstages
  have hinitial : Initial nothingPublished := ⟨fun _ => rfl, fun _ => rfl⟩
  exact ⟨final, hfinal, hreturned,
    (materializeRuntimeAssets_atomic sampleAssets hinitial hfinal).2.1 true hreturned.1⟩

end CfIntegration.Infrastructure.Assets
