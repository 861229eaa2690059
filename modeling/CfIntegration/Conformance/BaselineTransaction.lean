import CfIntegration.Conformance.Baseline

/-! # Transactional baseline updates

Blessing copies the whole baseline tree to a staging sibling, replaces the
updated documents there, reads each of them back, and then swaps the staged tree
for the root through a backup sibling. Every file-system operation can fail.
-/

namespace CfIntegration.Conformance

/-! ## Reading below a root -/

/-- What inspecting a path finds; `behindLink` stands for a path that continues
through a symbolic link. -/
def inspectBelow (behindLink : BaselineFile) : List String → Option (Tree Bytes) → BaselineFile
  | _, none => .missing
  | [], some (.file content) => .file content
  | [], some _ => .notRegular
  | name :: rest, some (.directory entries) =>
      inspectBelow behindLink rest (entries.lookup name)
  | _ :: _, some .symlink => behindLink
  | _ :: _, some _ => .unreadable "Not a directory"

/-- The baseline files below a root directory. -/
def baselineFileAt (behindLink : BaselineView) (root : Option (Tree Bytes)) : BaselineView :=
  fun path => inspectBelow (behindLink path) path root

/-- A path with a content is inspected as a regular file. -/
theorem inspectBelow_of_contentAt? {behindLink : BaselineFile} {path : List String}
    {root : Option (Tree Bytes)} {content : Bytes}
    (hcontent : Tree.contentAt? root path = some content) :
    inspectBelow behindLink path root = .file content := by
  induction path generalizing root with
  | nil =>
      rcases root with _ | (_ | _ | _ | _) <;>
        simp only [Tree.contentAt?, Tree.fileAt?, Tree.find?, Option.bind_none, Option.bind_some,
          Option.some.injEq, reduceCtorEq] at hcontent
      rw [hcontent, inspectBelow]
  | cons name rest ih =>
      rcases root with _ | (_ | _ | _ | entries)
      · simp [Tree.contentAt?] at hcontent
      all_goals first
        | simp [Tree.contentAt?, Tree.fileAt?, Tree.find?] at hcontent; done
        | rw [Tree.contentAt?_directory_cons] at hcontent
          rw [inspectBelow, ih hcontent]

/-! ## The transaction -/

/-- The file-system operations of one transaction that can fail. -/
inductive BlessStep where
  | createParent
  | createStaging
  | inspectRoot
  | copyDirectory
  | stageUpdate (path : List String)
  | preserveRoot
  | installStaging
  | rollback
  | moveNew
  | restoreOld
  deriving DecidableEq, Repr

/-- The recursive removals of one transaction. -/
inductive BlessRemoval where
  | backup
  | droppedBackup
  | droppedStaging
  deriving DecidableEq, Repr

/-- Which operations fail. A failing removal may leave any part of the tree. -/
structure BlessFaults where
  fails : BlessStep → Option String
  removal : BlessRemoval → Option (String × Option (Tree Bytes))

def BlessFaults.none : BlessFaults := ⟨fun _ => Option.none, fun _ => Option.none⟩

@[simp] theorem BlessFaults.none_fails (step : BlessStep) :
    BlessFaults.none.fails step = Option.none := rfl

@[simp] theorem BlessFaults.none_removal (removal : BlessRemoval) :
    BlessFaults.none.removal removal = Option.none := rfl

def BlessFaults.attempt (faults : BlessFaults) (step : BlessStep) : Except String Unit :=
  match faults.fails step with
  | some message => .error message
  | Option.none => .ok ()

/-- The baseline root, the transaction's two siblings of it, and the guards
that remove a sibling when they are dropped. -/
structure BaselineDisk where
  root : Option (Tree Bytes)
  staging : Option (Tree Bytes)
  backup : Option (Tree Bytes)
  stagingArmed : Bool
  backupArmed : Bool

/-- Rename a directory; the target may only be an empty directory. -/
def renameDirectory (fault : Option String) (source target : Option (Tree Bytes)) :
    Except String (Option (Tree Bytes) × Option (Tree Bytes)) :=
  match fault, source, target with
  | some message, _, _ => .error message
  | none, none, _ => .error "No such file or directory"
  | none, some tree, none | none, some tree, some (.directory []) => .ok (none, some tree)
  | none, some _, some _ => .error "Directory not empty"

/-- Remove a directory recursively: the error, and what is left. -/
def removeDirAll (fault : Option (String × Option (Tree Bytes))) (tree : Option (Tree Bytes)) :
    Option String × Option (Tree Bytes) :=
  match tree, fault with
  | none, _ => (some "No such file or directory", none)
  | some _, some (message, leftover) => (some message, leftover)
  | some _, none => (none, none)

mutual

/-- Why a baseline tree cannot be copied, looking at entries in name order. -/
def unsupportedEntry (path : List String) : Tree Bytes → Option String
  | .file _ => none
  | .symlink => some s!"baseline tree must not contain symlink {path}"
  | .special => some s!"unsupported baseline tree entry {path}"
  | .directory entries =>
      (sortByName (unsupportedEntries path entries)).findSome? Prod.snd

def unsupportedEntries (directory : List String) :
    List (String × Tree Bytes) → List (String × Option String)
  | [] => []
  | (name, tree) :: rest =>
      (name, unsupportedEntry (directory ++ [name]) tree) :: unsupportedEntries directory rest

end

/-- A complete copy of a directory of files and directories. -/
def copyDirectory (tree : Tree Bytes) : Except String (Tree Bytes) :=
  match unsupportedEntry [] tree with
  | some message => .error message
  | none => .ok tree

/-- Write one update to the staged tree and read it back. -/
def stageUpdate (codec : YamlCodec) (faults : BlessFaults)
    (state : List (List String) × Tree Bytes) (update : BaselineUpdate) :
    Except String (List (List String) × Tree Bytes) := do
  let (paths, staged) := state
  let path := update.relativePath
  bailIf (path ∈ paths) s!"duplicate baseline update for {path}"
  let source ← codec.toString update.document
  faults.attempt (.stageUpdate path)
  let some staged := Tree.write path source (some staged)
    | .error s!"failed to write staged conformance baseline {path}"
  let _ ← readBaseline codec (baselineFileAt (fun _ => .missing) (some staged)) path
  return (path :: paths, staged)

/-- Copy the existing root, which has to be a real directory. -/
def stageRoot (faults : BlessFaults) (root : Option (Tree Bytes)) :
    Except String (Tree Bytes) := do
  faults.attempt .inspectRoot
  match root with
  | none => return .directory []
  | some (.directory entries) =>
      faults.attempt .copyDirectory
      copyDirectory (.directory entries)
  | some _ => .error "baseline root must be a real directory"

/-- The complete tree that is installed. -/
def stageBaselines (codec : YamlCodec) (faults : BlessFaults) (root : Option (Tree Bytes))
    (updates : List BaselineUpdate) : Except String (Tree Bytes) := do
  let copied ← stageRoot faults root
  let (_, staged) ← updates.foldlM (stageUpdate codec faults) ([], copied)
  return staged

/-- Swap the staged tree for the existing root, undoing what was done on failure. -/
def replaceRoot (faults : BlessFaults) (disk : BaselineDisk) :
    Except String Unit × BaselineDisk :=
  match renameDirectory (faults.fails .preserveRoot) disk.root disk.backup with
  | .error message => (.error s!"failed to move existing baseline root: {message}", disk)
  | .ok (root, backup) =>
      let disk := { disk with root, backup }
      match renameDirectory (faults.fails .installStaging) disk.staging disk.root with
      | .error message =>
          match renameDirectory (faults.fails .rollback) disk.backup disk.root with
          | .ok (backup, root) =>
              (.error s!"failed to install staged baselines: {message}", { disk with root, backup })
          | .error _ =>
              (.error s!"failed to install staged baselines: {message}",
                { disk with backupArmed := false })
      | .ok (staging, root) =>
          let disk := { disk with staging, root }
          match removeDirAll (faults.removal .backup) disk.backup with
          | (none, backup) => (.ok (), { disk with backup, backupArmed := false })
          | (some message, backup) =>
              let disk := { disk with backup }
              let moveNew := renameDirectory (faults.fails .moveNew) disk.root disk.staging
              let disk := match moveNew with
                | .ok (root, staging) => { disk with root, staging }
                | .error _ => disk
              let restoreOld := renameDirectory (faults.fails .restoreOld) disk.backup disk.root
              let disk := match restoreOld with
                | .ok (backup, root) => { disk with root, backup }
                | .error _ => disk
              (.error s!"failed to remove baseline backup after commit: {message}",
                { disk with
                  stagingArmed := moveNew.toBool && restoreOld.toBool
                  backupArmed := restoreOld.toBool })

/-- Install the staged tree at the root. -/
def installStaged (faults : BlessFaults) (disk : BaselineDisk) :
    Except String Unit × BaselineDisk :=
  match disk.root with
  | some _ => replaceRoot faults disk
  | none =>
      match renameDirectory (faults.fails .installStaging) disk.staging none with
      | .error message =>
          (.error s!"failed to install staged conformance baselines: {message}", disk)
      | .ok (staging, root) => (.ok (), { disk with staging, root })

/-- Drop the guards, the later one first. -/
def dropGuards (faults : BlessFaults) (disk : BaselineDisk) : BaselineDisk :=
  { disk with
    backup := if disk.backupArmed then (removeDirAll (faults.removal .droppedBackup) disk.backup).2
      else disk.backup
    staging := if disk.stagingArmed then
        (removeDirAll (faults.removal .droppedStaging) disk.staging).2
      else disk.staging }

/-- Commit all selected updates as one directory transaction. -/
def blessBaselinesTransactionally (codec : YamlCodec) (faults : BlessFaults)
    (rootName : Option String) (root : Option (Tree Bytes)) (updates : List BaselineUpdate) :
    Except String Unit × BaselineDisk :=
  let untouched : BaselineDisk :=
    { root, staging := none, backup := none, stagingArmed := false, backupArmed := false }
  if updates = [] then
    (.error "no conformance baselines were selected for blessing", untouched)
  else if rootName = none then
    (.error "baseline root must have a UTF-8 directory name", untouched)
  else
    match faults.attempt .createParent, faults.attempt .createStaging with
    | .error message, _ => (.error message, untouched)
    | .ok (), .error message => (.error message, untouched)
    | .ok (), .ok () =>
        -- A partly staged tree is under its guard, whose removal is what decides what stays.
        let disk := { untouched with
          staging := some (.directory []), stagingArmed := true, backupArmed := true }
        match stageBaselines codec faults root updates with
        | .error message => (.error message, dropGuards faults disk)
        | .ok staged =>
            match installStaged faults { disk with staging := some staged } with
            | (.error message, disk) => (.error message, dropGuards faults disk)
            | (.ok (), disk) => (.ok (), dropGuards faults { disk with stagingArmed := false })

/-! ## What a committed transaction installed -/

/-- A step succeeds unless a fault is set for it. -/
@[simp] theorem attempt_eq_ok {faults : BlessFaults} {step : BlessStep} {result : Unit} :
    faults.attempt step = .ok result ↔ faults.fails step = none := by
  unfold BlessFaults.attempt
  split <;> simp_all

mutual

/-- Exactly the trees of real files and directories are copied. -/
theorem unsupportedEntry_eq_none : ∀ (tree : Tree Bytes) (path : List String),
    unsupportedEntry path tree = none ↔ tree.isPlain = true
  | .file _, _ => by simp [unsupportedEntry, Tree.isPlain]
  | .symlink, _ => by simp [unsupportedEntry, Tree.isPlain]
  | .special, _ => by simp [unsupportedEntry, Tree.isPlain]
  | .directory entries, path => by
      rw [unsupportedEntry, Tree.isPlain, List.findSome?_eq_none_iff,
        ← unsupportedEntries_eq_none entries path]
      simp only [sortByName, List.mem_insertionSort]

/-- No entry is unsupported exactly when all of them are plain. -/
theorem unsupportedEntries_eq_none : ∀ (entries : List (String × Tree Bytes))
    (directory : List String),
    (∀ found ∈ unsupportedEntries directory entries, found.2 = none) ↔
      Tree.arePlain entries = true
  | [], _ => by simp [unsupportedEntries, Tree.arePlain]
  | (name, tree) :: rest, directory => by
      rw [unsupportedEntries, List.forall_mem_cons, Tree.arePlain, Bool.and_eq_true,
        unsupportedEntry_eq_none tree, unsupportedEntries_eq_none rest]

end

/-- Only plain trees are copied, and the copy is the tree. -/
theorem copyDirectory_ok_iff {tree copied : Tree Bytes} :
    copyDirectory tree = .ok copied ↔ tree.isPlain = true ∧ tree = copied := by
  rw [← unsupportedEntry_eq_none tree []]
  unfold copyDirectory
  cases unsupportedEntry [] tree <;> simp

/-- The tree holds the document of an update, in a form that can be read back. -/
def HoldsDocument (codec : YamlCodec) (tree : Option (Tree Bytes)) (update : BaselineUpdate) :
    Prop :=
  ∃ source, codec.toString update.document = .ok source ∧
    Tree.contentAt? tree update.relativePath = some source ∧
    ∃ document, readBaselineWithMetadata codec update.relativePath source = .ok document

theorem readBaselineOptional_of_contentAt? {codec : YamlCodec} {behindLink : BaselineView}
    {root : Option (Tree Bytes)} {path : List String} {content : Bytes}
    (hcontent : Tree.contentAt? root path = some content) :
    readBaselineOptional codec (baselineFileAt behindLink root) path =
      some <$> readBaselineWithMetadata codec path content := by
  rw [readBaselineOptional, baselineFileAt, inspectBelow_of_contentAt? hcontent]

/-- What a blessed path holds is read back as the document of its update. -/
theorem readBaselineOptional_of_holdsDocument {codec : YamlCodec} (hcodec : codec.ReadsBack)
    (behindLink : BaselineView) {root : Option (Tree Bytes)} {update : BaselineUpdate}
    (hholds : HoldsDocument codec root update) :
    readBaselineOptional codec (baselineFileAt behindLink root) update.relativePath =
      .ok (some update.document) := by
  obtain ⟨source, hsource, hcontent, document, hread⟩ := hholds
  obtain ⟨_, hparse, _⟩ := readBaselineWithMetadata_ok_iff.mp hread
  have hdocument : document = update.document := by
    have := hparse.symm.trans (hcodec _ _ hsource)
    simpa using this
  rw [readBaselineOptional_of_contentAt? hcontent, hread, hdocument]
  rfl

theorem readBaseline_of_contentAt? {codec : YamlCodec} {behindLink : BaselineView}
    {root : Option (Tree Bytes)} {path : List String} {content : Bytes}
    (hcontent : Tree.contentAt? root path = some content) :
    readBaseline codec (baselineFileAt behindLink root) path =
      readBaselineWithMetadata codec path content := by
  rw [readBaseline, readBaselineOptional_of_contentAt? hcontent]
  cases readBaselineWithMetadata codec path content <;> rfl

/-- A staged update replaced the file at its path by its document. -/
theorem stageUpdate_ok_iff {codec : YamlCodec} {faults : BlessFaults} {paths : List (List String)}
    {staged : Tree Bytes} {update : BaselineUpdate} {next : List (List String) × Tree Bytes} :
    stageUpdate codec faults (paths, staged) update = .ok next ↔
      update.relativePath ∉ paths ∧ faults.fails (.stageUpdate update.relativePath) = none ∧
      ∃ source written document, codec.toString update.document = .ok source ∧
        Tree.write update.relativePath source (some staged) = some written ∧
        readBaselineWithMetadata codec update.relativePath source = .ok document ∧
        next = (update.relativePath :: paths, written) := by
  unfold stageUpdate
  simp only [except_bind_eq_ok, bailIf_eq_ok, attempt_eq_ok]
  constructor
  · rintro ⟨_, hfresh, source, hsource, _, hfault, hwrite⟩
    split at hwrite
    next written hwritten =>
      obtain ⟨document, hread, hnext⟩ := except_bind_eq_ok.mp hwrite
      rw [readBaseline_of_contentAt? (Tree.contentAt?_write_self hwritten)] at hread
      cases hnext
      exact ⟨hfresh, hfault, source, written, document, hsource, hwritten, hread, rfl⟩
    · contradiction
  · rintro ⟨hfresh, hfault, source, written, document, hsource, hwritten, hread, rfl⟩
    refine ⟨⟨⟩, hfresh, source, hsource, ⟨⟩, hfault, ?_⟩
    rw [hwritten]
    refine except_bind_eq_ok.mpr ⟨document, ?_, rfl⟩
    rw [readBaseline_of_contentAt? (Tree.contentAt?_write_self hwritten), hread]

section Staging

variable {codec : YamlCodec} {faults : BlessFaults} {paths : List (List String)}
  {staged : Tree Bytes} {updates : List BaselineUpdate}
  {final : List (List String) × Tree Bytes}

/-- Staging touches no update path twice. -/
theorem stageUpdates_nodup
    (hstaged : updates.foldlM (stageUpdate codec faults) (paths, staged) = .ok final) :
    (updates.map BaselineUpdate.relativePath).Nodup ∧
      ∀ update ∈ updates, update.relativePath ∉ paths := by
  induction updates generalizing paths staged with
  | nil => simp
  | cons update rest ih =>
      rw [List.foldlM_cons, except_bind_eq_ok] at hstaged
      obtain ⟨_, hstep, hrest⟩ := hstaged
      obtain ⟨hfresh, _, _, written, _, _, _, _, rfl⟩ := stageUpdate_ok_iff.mp hstep
      obtain ⟨hnodup, hdisjoint⟩ := ih hrest
      have hother : ∀ other ∈ rest, other.relativePath ≠ update.relativePath ∧
          other.relativePath ∉ paths := fun other hother => by
        simpa [not_or] using hdisjoint other hother
      refine ⟨?_, ?_⟩
      · rw [List.map_cons, List.nodup_cons]
        refine ⟨?_, hnodup⟩
        rw [List.mem_map]
        rintro ⟨other, hmem, heq⟩
        exact (hother other hmem).1 heq
      · rw [List.forall_mem_cons]
        exact ⟨hfresh, fun other hmem => (hother other hmem).2⟩

/-- Staging keeps every file outside the update paths. -/
theorem stageUpdates_frame
    (hstaged : updates.foldlM (stageUpdate codec faults) (paths, staged) = .ok final)
    {path : List String} (hpath : path ∉ updates.map BaselineUpdate.relativePath) :
    Tree.contentAt? (some final.2) path = Tree.contentAt? (some staged) path := by
  refine except_foldlM_invariant
    (fun state => Tree.contentAt? (some state.2) path = Tree.contentAt? (some staged) path)
    ?_ rfl hstaged
  rintro ⟨_, tree⟩ update next hmem hinvariant hstep
  obtain ⟨_, _, _, written, _, _, hwritten, _, rfl⟩ := stageUpdate_ok_iff.mp hstep
  have hne : path ≠ update.relativePath := fun heq =>
    hpath (heq ▸ List.mem_map_of_mem hmem)
  rw [Tree.contentAt?_write_of_ne hne hwritten, hinvariant]

/-- After staging, every update's document is in place. -/
theorem stageUpdates_holdsDocument
    (hstaged : updates.foldlM (stageUpdate codec faults) (paths, staged) = .ok final) :
    ∀ update ∈ updates, HoldsDocument codec (some final.2) update := by
  induction updates generalizing paths staged with
  | nil => simp
  | cons update rest ih =>
      have hnodup := (stageUpdates_nodup hstaged).1
      rw [List.map_cons, List.nodup_cons] at hnodup
      rw [List.foldlM_cons, except_bind_eq_ok] at hstaged
      obtain ⟨_, hstep, hrest⟩ := hstaged
      obtain ⟨_, _, source, written, document, hsource, hwritten, hread, rfl⟩ :=
        stageUpdate_ok_iff.mp hstep
      rw [List.forall_mem_cons]
      refine ⟨⟨source, hsource, ?_, document, hread⟩, ih hrest⟩
      rw [stageUpdates_frame hrest hnodup.1, Tree.contentAt?_write_self hwritten]

/-- What is staged stays a directory that can be copied again. -/
theorem stageUpdates_directory
    (hstaged : updates.foldlM (stageUpdate codec faults) (paths, staged) = .ok final)
    (hplain : staged.isPlain = true) (hdirectory : ∃ entries, staged = .directory entries) :
    final.2.isPlain = true ∧ ∃ entries, final.2 = .directory entries := by
  refine except_foldlM_invariant
    (fun state => state.2.isPlain = true ∧ ∃ entries, state.2 = .directory entries)
    ?_ ⟨hplain, hdirectory⟩ hstaged
  rintro ⟨_, tree⟩ update next _ ⟨hplain, entries, rfl⟩ hstep
  obtain ⟨_, _, _, written, _, _, hwritten, _, rfl⟩ := stageUpdate_ok_iff.mp hstep
  refine ⟨Tree.isPlain_write (fun old hold => ?_) hwritten, Tree.directory_of_write hwritten⟩
  cases hold
  exact hplain

/-- Staging documents that are already in place changes nothing. -/
theorem stageUpdates_of_holdsDocument
    (hholds : ∀ update ∈ updates, HoldsDocument codec (some staged) update)
    (hnodup : (updates.map BaselineUpdate.relativePath).Nodup)
    (hfresh : ∀ update ∈ updates, update.relativePath ∉ paths)
    (hfaults : ∀ update ∈ updates, faults.fails (.stageUpdate update.relativePath) = none) :
    ∃ seen, updates.foldlM (stageUpdate codec faults) (paths, staged) = .ok (seen, staged) := by
  induction updates generalizing paths with
  | nil => exact ⟨paths, rfl⟩
  | cons update rest ih =>
      rw [List.forall_mem_cons] at hholds hfresh hfaults
      obtain ⟨⟨source, hsource, hcontent, document, hread⟩, hholds⟩ := hholds
      rw [List.map_cons, List.nodup_cons] at hnodup
      have hstep := stageUpdate_ok_iff.mpr ⟨hfresh.1, hfaults.1, source, staged, document, hsource,
        Tree.write_of_contentAt? hcontent, hread, rfl⟩
      have hdisjoint : ∀ other ∈ rest, other.relativePath ∉ update.relativePath :: paths := by
        intro other hother
        rw [List.mem_cons, not_or]
        refine ⟨fun heq => hnodup.1 ?_, hfresh.2 other hother⟩
        rw [← heq]
        exact List.mem_map_of_mem hother
      obtain ⟨seen, hrest⟩ := ih hholds hnodup.2 hdisjoint hfaults.2
      refine ⟨seen, ?_⟩
      rw [List.foldlM_cons, hstep]
      exact hrest

end Staging

/-- What staging starts from: an empty directory, or a copy of a plain one. -/
theorem stageRoot_ok_iff {faults : BlessFaults} {root : Option (Tree Bytes)} {copied : Tree Bytes} :
    stageRoot faults root = .ok copied ↔ faults.fails .inspectRoot = none ∧
      (root = none ∧ copied = .directory [] ∨
        ∃ entries, root = some (.directory entries) ∧ faults.fails .copyDirectory = none ∧
          copied = .directory entries ∧ copied.isPlain = true) := by
  unfold stageRoot
  simp only [except_bind_eq_ok, attempt_eq_ok]
  rcases root with _ | (_ | _ | _ | entries)
  case none => simp [pure, Except.pure, @eq_comm _ copied]
  case some.directory =>
    simp only [except_bind_eq_ok, attempt_eq_ok, copyDirectory_ok_iff]
    constructor
    · rintro ⟨_, hinspect, _, hcopy, hplain, rfl⟩
      exact ⟨hinspect, Or.inr ⟨entries, rfl, hcopy, rfl, hplain⟩⟩
    · rintro ⟨hinspect, ⟨hroot, _⟩ | ⟨_, hroot, hcopy, rfl, hplain⟩⟩
      · contradiction
      · cases hroot
        exact ⟨⟨⟩, hinspect, ⟨⟩, hcopy, hplain, rfl⟩
  all_goals simp

/-- The copy has the contents of the root. -/
theorem contentAt?_of_stageRoot {faults : BlessFaults} {root : Option (Tree Bytes)}
    {copied : Tree Bytes} (hcopied : stageRoot faults root = .ok copied) (path : List String) :
    Tree.contentAt? (some copied) path = Tree.contentAt? root path := by
  obtain ⟨_, ⟨rfl, rfl⟩ | ⟨_, rfl, _, rfl, _⟩⟩ := stageRoot_ok_iff.mp hcopied
  · cases path <;> rfl
  · rfl

theorem directory_of_stageRoot {faults : BlessFaults} {root : Option (Tree Bytes)}
    {copied : Tree Bytes} (hcopied : stageRoot faults root = .ok copied) :
    copied.isPlain = true ∧ ∃ entries, copied = .directory entries := by
  obtain ⟨_, ⟨_, rfl⟩ | ⟨entries, _, _, hentries, hplain⟩⟩ := stageRoot_ok_iff.mp hcopied
  · exact ⟨rfl, [], rfl⟩
  · exact ⟨hplain, entries, hentries⟩

/-- A rename that succeeds leaves nothing at its source. -/
theorem renameDirectory_ok {fault : Option String} {source target : Option (Tree Bytes)}
    {moved : Option (Tree Bytes) × Option (Tree Bytes)}
    (hmoved : renameDirectory fault source target = .ok moved) : moved = (none, source) := by
  unfold renameDirectory at hmoved
  split at hmoved <;> simp_all

/-- An installation that succeeds puts the staged tree in the place of the root. -/
theorem installStaged_ok {faults : BlessFaults} {disk installed : BaselineDisk}
    (hinstalled : installStaged faults disk = (.ok (), installed)) :
    installed.root = disk.staging := by
  unfold installStaged replaceRoot at hinstalled
  split at hinstalled
  · split at hinstalled
    · simp at hinstalled
    next hpreserved =>
      cases renameDirectory_ok hpreserved
      dsimp only at hinstalled
      split at hinstalled
      · split at hinstalled <;> simp at hinstalled
      next hmoved =>
        cases renameDirectory_ok hmoved
        split at hinstalled
        · cases hinstalled
          rfl
        · simp at hinstalled
  · split at hinstalled
    · simp at hinstalled
    next hmoved =>
      cases renameDirectory_ok hmoved
      cases hinstalled
      rfl

/-- A committed transaction left the staged tree at the root. -/
theorem blessBaselinesTransactionally_ok {codec : YamlCodec} {faults : BlessFaults}
    {rootName : Option String} {root : Option (Tree Bytes)} {updates : List BaselineUpdate}
    {disk : BaselineDisk}
    (hblessed : blessBaselinesTransactionally codec faults rootName root updates =
      (.ok (), disk)) :
    updates ≠ [] ∧ rootName ≠ none ∧ ∃ copied seen staged,
      stageRoot faults root = .ok copied ∧
      updates.foldlM (stageUpdate codec faults) ([], copied) = .ok (seen, staged) ∧
      disk.root = some staged := by
  unfold blessBaselinesTransactionally at hblessed
  dsimp only at hblessed
  split at hblessed
  · simp at hblessed
  next hupdates =>
    split at hblessed
    · simp at hblessed
    next hname =>
      split at hblessed
      · simp at hblessed
      · simp at hblessed
      · split at hblessed
        · simp at hblessed
        next staged hstaged =>
          obtain ⟨copied, hcopied, ⟨seen, final⟩, hfold, hfinal⟩ := by
            simpa only [stageBaselines, except_bind_eq_ok] using hstaged
          cases hfinal
          split at hblessed
          · simp at hblessed
          next hinstalled =>
            cases hblessed
            exact ⟨hupdates, hname, copied, seen, final, hcopied, hfold,
              installStaged_ok hinstalled⟩

/-- Without faults, what can be staged is installed. -/
theorem blessBaselinesTransactionally_none {codec : YamlCodec} {rootName : String}
    {root : Option (Tree Bytes)} {copied staged : Tree Bytes} {updates : List BaselineUpdate}
    {seen : List (List String)} (hupdates : updates ≠ [])
    (hcopied : stageRoot BlessFaults.none root = .ok copied)
    (hstaged : updates.foldlM (stageUpdate codec BlessFaults.none) ([], copied) =
      .ok (seen, staged)) :
    ∃ disk, blessBaselinesTransactionally codec BlessFaults.none (some rootName) root updates =
      (.ok (), disk) ∧ disk.root = some staged := by
  have hbaselines : stageBaselines codec BlessFaults.none root updates = .ok staged := by
    rw [stageBaselines, hcopied]
    simp only [bind, Except.bind, hstaged, pure, Except.pure]
  unfold blessBaselinesTransactionally
  cases root <;> simp [hupdates, hbaselines, BlessFaults.attempt, installStaged, replaceRoot,
    renameDirectory, removeDirAll, dropGuards]

/-! ## Blessing and evaluating again -/

/-- One evaluation whose updates join a transaction. -/
structure BaselineRequest where
  direction : ConformanceDirection
  results : LaneResults
  selectedLanes : List SemanticLane
  clientVersion : String
  serverEra : ConformanceServerEra

namespace BaselineRequest

def evaluate (codec : YamlCodec) (baselines : BaselineView) (bless : Bool)
    (request : BaselineRequest) : Except String BaselineEvaluation :=
  evaluateBaselines codec request.direction request.results request.selectedLanes baselines
    request.clientVersion request.serverEra bless

/-- Every selected lane was compared and matched. -/
def AllMatch (request : BaselineRequest) (evaluation : BaselineEvaluation) : Prop :=
  evaluation.comparisons.map BaselineComparison.lane =
      allConformanceLanes.filter (· ∈ request.selectedLanes) ∧
    ∀ comparison ∈ evaluation.comparisons, comparison.matches = true

end BaselineRequest

def blessedUpdates (evaluations : List BaselineEvaluation) : List BaselineUpdate :=
  evaluations.flatMap BaselineEvaluation.updates

section RoundTrip

variable {codec : YamlCodec} {requests : List BaselineRequest}
  {evaluations : List BaselineEvaluation}

/-- Once the updates of all requests are installed, every comparison matches. -/
theorem evaluate_all_of_installed {baselines installed : BaselineView}
    (hevaluated : requests.mapM (BaselineRequest.evaluate codec baselines true) = .ok evaluations)
    (hinstalled : ∀ update ∈ blessedUpdates evaluations,
      readBaselineOptional codec installed update.relativePath = .ok (some update.document))
    (bless : Bool) :
    ∃ again, requests.mapM (BaselineRequest.evaluate codec installed bless) = .ok again ∧
      List.Forall₂ BaselineRequest.AllMatch requests again ∧
      (bless = true → blessedUpdates again = blessedUpdates evaluations) := by
  simp only [except_mapM_eq_ok] at hevaluated ⊢
  induction hevaluated with
  | nil => exact ⟨[], List.Forall₂.nil, List.Forall₂.nil, fun _ => rfl⟩
  | cons hrequest _ ih =>
      simp only [blessedUpdates, List.flatMap_cons, List.mem_append] at hinstalled
      obtain ⟨first, hfirst, hlanes, hmatches, hupdates⟩ := evaluateBaselines_of_installed hrequest
        (fun update hupdate => hinstalled update (Or.inl hupdate)) bless
      obtain ⟨others, hothers, hallMatch, hotherUpdates⟩ :=
        ih fun update hupdate => hinstalled update (Or.inr hupdate)
      refine ⟨first :: others, List.Forall₂.cons hfirst hothers,
        List.Forall₂.cons ⟨hlanes, hmatches⟩ hallMatch, fun hbless => ?_⟩
      rw [blessedUpdates, blessedUpdates, List.flatMap_cons, List.flatMap_cons, hupdates hbless]
      exact congrArg _ (hotherUpdates hbless)

/-- A committed transaction keeps every file outside its update paths. -/
theorem blessBaselinesTransactionally_frame {faults : BlessFaults} {rootName : Option String}
    {root : Option (Tree Bytes)} {updates : List BaselineUpdate} {disk : BaselineDisk}
    (hblessed : blessBaselinesTransactionally codec faults rootName root updates = (.ok (), disk))
    {path : List String} (hpath : path ∉ updates.map BaselineUpdate.relativePath) :
    Tree.contentAt? disk.root path = Tree.contentAt? root path := by
  obtain ⟨_, _, copied, _, staged, hcopied, hfold, hroot⟩ :=
    blessBaselinesTransactionally_ok hblessed
  rw [hroot, ← contentAt?_of_stageRoot hcopied]
  exact stageUpdates_frame hfold hpath

/-- After a transaction that succeeds every update is on the disk. -/
theorem blessBaselinesTransactionally_holdsDocument {faults : BlessFaults}
    {rootName : Option String} {root : Option (Tree Bytes)} {updates : List BaselineUpdate}
    {disk : BaselineDisk}
    (hblessed : blessBaselinesTransactionally codec faults rootName root updates =
      (.ok (), disk)) :
    ∀ update ∈ updates, HoldsDocument codec disk.root update := by
  obtain ⟨_, _, _, _, _, _, hfold, hroot⟩ := blessBaselinesTransactionally_ok hblessed
  rw [hroot]
  exact stageUpdates_holdsDocument hfold

/-- Blessing a tree whose documents are already in place commits the same tree,
and does so whenever no operation fails. -/
theorem blessBaselinesTransactionally_idempotent {faults : BlessFaults} {rootName : Option String}
    {root : Option (Tree Bytes)} {updates : List BaselineUpdate} {disk : BaselineDisk}
    (hblessed : blessBaselinesTransactionally codec faults rootName root updates =
      (.ok (), disk)) :
    (∃ again, blessBaselinesTransactionally codec BlessFaults.none rootName disk.root updates =
        (.ok (), again) ∧ again.root = disk.root) ∧
      ∀ faults again, blessBaselinesTransactionally codec faults rootName disk.root updates =
        (.ok (), again) → again.root = disk.root := by
  have hholds := blessBaselinesTransactionally_holdsDocument hblessed
  obtain ⟨hupdates, hname, copied, _, staged, hcopied, hfold, hroot⟩ :=
    blessBaselinesTransactionally_ok hblessed
  have hnodup := (stageUpdates_nodup hfold).1
  obtain ⟨hcopiedPlain, hcopiedDirectory⟩ := directory_of_stageRoot hcopied
  obtain ⟨hplain, entries, hstaged⟩ :=
    stageUpdates_directory hfold hcopiedPlain hcopiedDirectory
  dsimp only at hplain hstaged
  subst hstaged
  rw [hroot] at hholds ⊢
  obtain ⟨rootName, rfl⟩ := Option.ne_none_iff_exists'.mp hname
  constructor
  · have hagain : stageRoot BlessFaults.none (some (.directory entries)) =
        .ok (.directory entries) :=
      stageRoot_ok_iff.mpr ⟨rfl, Or.inr ⟨entries, rfl, rfl, rfl, hplain⟩⟩
    obtain ⟨seen, hstaged⟩ := stageUpdates_of_holdsDocument hholds hnodup
      (fun update _ => List.not_mem_nil) (fun update _ => BlessFaults.none_fails _)
    exact blessBaselinesTransactionally_none hupdates hagain hstaged
  · intro faults again hagain
    obtain ⟨_, _, recopied, _, restaged, hrecopied, hrefold, hreroot⟩ :=
      blessBaselinesTransactionally_ok hagain
    obtain ⟨_, ⟨hnone, _⟩ | ⟨_, hsome, _, rfl, _⟩⟩ := stageRoot_ok_iff.mp hrecopied
    · contradiction
    cases hsome
    -- No injected fault hit a document, since this transaction succeeded too.
    have hstep : ∀ state update next, stageUpdate codec faults state update = .ok next →
        faults.fails (.stageUpdate update.relativePath) = none :=
      fun _ _ _ hstaged => (stageUpdate_ok_iff.mp hstaged).2.1
    have hfaults := except_foldlM_forall hstep hrefold
    obtain ⟨seen, hstaged⟩ := stageUpdates_of_holdsDocument hholds hnodup
      (fun update _ => List.not_mem_nil) hfaults
    rw [hreroot]
    cases hrefold.symm.trans hstaged
    rfl

/-- Blessing evaluations and evaluating the same results again matches every
selected lane; only the blessed paths changed, and blessing again changes nothing. -/
theorem bless_then_evaluate_matches (hcodec : codec.ReadsBack) {faults : BlessFaults}
    {rootName : Option String} {behindLink : BaselineView} {root : Option (Tree Bytes)}
    {disk : BaselineDisk}
    (hevaluated : requests.mapM (BaselineRequest.evaluate codec
      (baselineFileAt behindLink root) true) = .ok evaluations)
    (hblessed : blessBaselinesTransactionally codec faults rootName root
      (blessedUpdates evaluations) = (.ok (), disk)) :
    (∃ unblessed, requests.mapM (BaselineRequest.evaluate codec
        (baselineFileAt behindLink disk.root) false) = .ok unblessed ∧
      List.Forall₂ BaselineRequest.AllMatch requests unblessed) ∧
    (∀ path ∉ (blessedUpdates evaluations).map BaselineUpdate.relativePath,
      Tree.contentAt? disk.root path = Tree.contentAt? root path) ∧
    ∃ again, requests.mapM (BaselineRequest.evaluate codec
        (baselineFileAt behindLink disk.root) true) = .ok again ∧
      (∃ repeated, blessBaselinesTransactionally codec BlessFaults.none rootName disk.root
          (blessedUpdates again) = (.ok (), repeated) ∧ repeated.root = disk.root) ∧
      ∀ faults repeated, blessBaselinesTransactionally codec faults rootName disk.root
        (blessedUpdates again) = (.ok (), repeated) → repeated.root = disk.root := by
  have hinstalled : ∀ update ∈ blessedUpdates evaluations, readBaselineOptional codec
      (baselineFileAt behindLink disk.root) update.relativePath = .ok (some update.document) :=
    fun update hupdate => readBaselineOptional_of_holdsDocument hcodec behindLink
      (blessBaselinesTransactionally_holdsDocument hblessed update hupdate)
  refine ⟨?_, fun path hpath => blessBaselinesTransactionally_frame hblessed hpath, ?_⟩
  · obtain ⟨unblessed, hunblessed, hmatch, _⟩ :=
      evaluate_all_of_installed hevaluated hinstalled false
    exact ⟨unblessed, hunblessed, hmatch⟩
  · obtain ⟨again, hagain, _, hupdates⟩ := evaluate_all_of_installed hevaluated hinstalled true
    refine ⟨again, hagain, ?_⟩
    rw [hupdates rfl]
    exact blessBaselinesTransactionally_idempotent hblessed

end RoundTrip

/-! ### One failing check -/

def failingDocument : ConformanceBaseline := ⟨[⟨"tools-list", "tools", "", .failure⟩]⟩

def failingSource : Bytes := utf8Bytes
  "findings:\n- scenario: tools-list\n  check: tools\n  name: ''\n  status: FAILURE\n".toList

def failingCodec : YamlCodec := YamlCodec.single failingDocument failingSource

def failingRequest : BaselineRequest where
  direction := .client
  results lane := if lane = .externalDataPlane then
      some ⟨OrderedMap.empty.insert "tools-list"
        ⟨"tools-list", [⟨"tools", none, .failure, [], none⟩], ["checks.json"]⟩⟩
    else none
  selectedLanes := [.externalDataPlane]
  clientVersion := "2026-07-28"
  serverEra := .modern

def failingUpdate : BaselineUpdate :=
  ⟨["2026-07-28", "modern", "client", "external-data-plane.yml"], failingDocument⟩

def failingTree : Tree Bytes :=
  .directory [("2026-07-28", .directory [("modern", .directory [("client", .directory
    [("external-data-plane.yml", .file failingSource)])])])]

theorem evaluate_failingRequest :
    [failingRequest].mapM (BaselineRequest.evaluate failingCodec
      (baselineFileAt (fun _ => .missing) none) true) =
      .ok [⟨[⟨.externalDataPlane, failingDocument.findings, [], failingDocument.findings, []⟩],
        [failingUpdate]⟩] := by
  rfl

theorem bless_failingUpdate :
    blessBaselinesTransactionally failingCodec BlessFaults.none (some "conformance") none
      [failingUpdate] = (.ok (), {
        root := some failingTree, staging := none, backup := none,
        stagingArmed := false, backupArmed := true }) := by
  have hsize : failingSource.length ≤ maxBaselineBytes := by decide +kernel
  have hstage : stageUpdate failingCodec BlessFaults.none ([], .directory []) failingUpdate =
      .ok ([failingUpdate.relativePath], failingTree) :=
    stageUpdate_ok_iff.mpr ⟨List.not_mem_nil, rfl, failingSource, failingTree, failingDocument,
      by simp [failingCodec, YamlCodec.single, failingUpdate], rfl,
      readBaselineWithMetadata_ok_iff.mpr ⟨hsize, by simp [failingCodec, YamlCodec.single],
        List.pairwise_singleton _ _⟩, rfl⟩
  simp [blessBaselinesTransactionally, BlessFaults.attempt, stageBaselines, stageRoot, hstage,
    installStaged, renameDirectory, dropGuards, removeDirAll, bind, Except.bind, pure, Except.pure]

theorem bless_then_evaluate_matches_failing :
    (∃ unblessed, [failingRequest].mapM (BaselineRequest.evaluate failingCodec
        (baselineFileAt (fun _ => .missing) (some failingTree)) false) = .ok unblessed ∧
      List.Forall₂ BaselineRequest.AllMatch [failingRequest] unblessed) ∧
    (∀ path ∉ [failingUpdate.relativePath], Tree.contentAt? (some failingTree) path = none) ∧
    ∃ again, [failingRequest].mapM (BaselineRequest.evaluate failingCodec
        (baselineFileAt (fun _ => .missing) (some failingTree)) true) = .ok again ∧
      (∃ repeated, blessBaselinesTransactionally failingCodec BlessFaults.none
          (some "conformance") (some failingTree) (blessedUpdates again) = (.ok (), repeated) ∧
        repeated.root = some failingTree) ∧
      ∀ faults repeated, blessBaselinesTransactionally failingCodec faults (some "conformance")
        (some failingTree) (blessedUpdates again) = (.ok (), repeated) →
          repeated.root = some failingTree := by
  have hcodec : failingCodec.ReadsBack := YamlCodec.single_readsBack failingDocument failingSource
  obtain ⟨hmatches, hframe, hagain⟩ :=
    bless_then_evaluate_matches hcodec evaluate_failingRequest bless_failingUpdate
  exact ⟨hmatches, hframe, hagain⟩

end CfIntegration.Conformance
