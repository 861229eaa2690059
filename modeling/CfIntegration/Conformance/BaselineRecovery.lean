import CfIntegration.Conformance.BaselineTransaction

/-! # What a failed transaction leaves

A transaction keeps the old tree at the root or in the backup until the staged
tree is installed, and undoes the installation when the backup cannot be removed.
By then the backup may be incomplete, and what is undone is the complete tree.
-/

namespace CfIntegration.Conformance

/-- A complete copy of a tree is at one of the transaction's three places. -/
def BaselineDisk.Holds (disk : BaselineDisk) (tree : Tree Bytes) : Prop :=
  disk.root = some tree ∨ disk.backup = some tree ∨ disk.staging = some tree

/-- The root is as it was, or the old or the new tree is complete somewhere. -/
def BaselineDisk.Recoverable (disk : BaselineDisk) (old : Option (Tree Bytes))
    (new : Except String (Tree Bytes)) : Prop :=
  disk.root = old ∨ (∃ tree, old = some tree ∧ disk.Holds tree) ∨
    ∃ tree, new = .ok tree ∧ disk.Holds tree

/-- The operations up to the swap succeed with this staged tree. -/
structure StagesBaselines (codec : YamlCodec) (faults : BlessFaults) (rootName : Option String)
    (root : Option (Tree Bytes)) (updates : List BaselineUpdate) (staged : Tree Bytes) : Prop where
  selected : updates ≠ []
  named : rootName ≠ none
  parent : faults.fails .createParent = none
  staging : faults.fails .createStaging = none
  staged : stageBaselines codec faults root updates = .ok staged

/-- The backup's removal fails after the swap, and both renames that undo the
swap succeed: what is left of the backup returns to the root. -/
structure BlessFaults.RestoresLeftover (faults : BlessFaults) (leftover : Tree Bytes) : Prop where
  preserved : faults.fails .preserveRoot = Option.none
  installed : faults.fails .installStaging = Option.none
  removal : ∃ message, faults.removal .backup = some (message, some leftover)
  movedNew : faults.fails .moveNew = Option.none
  restoredOld : faults.fails .restoreOld = Option.none

/-- The leftover that returns is incomplete, and the dropped staging guard does
not fail in a way that keeps a complete tree. -/
structure BlessFaults.LosesTrees (faults : BlessFaults) (old staged leftover : Tree Bytes) :
    Prop where
  restores : faults.RestoresLeftover leftover
  ne_old : leftover ≠ old
  ne_staged : leftover ≠ staged
  dropped : ∀ message kept, faults.removal .droppedStaging = some (message, kept) →
    kept ≠ some old ∧ kept ≠ some staged

/-- The disk when the staged tree is about to replace an existing root. -/
def BaselineDisk.swapping (old staged : Tree Bytes) : BaselineDisk :=
  { root := some old, staging := some staged, backup := none
    stagingArmed := true, backupArmed := true }

/-- A place holds a complete tree that no armed guard is about to remove. -/
def BaselineDisk.Guarded (disk : BaselineDisk) (old staged : Tree Bytes) : Prop :=
  disk.root = some old ∨ disk.root = some staged ∨
    (disk.backup = some old ∧ disk.backupArmed = false) ∨
    (disk.staging = some staged ∧ disk.stagingArmed = false)

/-- A rename to a free name moves the tree unless the file system refuses. -/
theorem renameDirectory_absent (fault : Option String) (tree : Tree Bytes) :
    renameDirectory fault (some tree) none =
      match fault with
      | some message => .error message
      | none => .ok (none, some tree) := by
  cases fault <;> rfl

/-- A rename onto a directory with entries fails. -/
theorem renameDirectory_occupied (fault : Option String) (source : Option (Tree Bytes))
    {target : Tree Bytes} (htarget : target ≠ .directory []) :
    ∃ message, renameDirectory fault source (some target) = .error message := by
  unfold renameDirectory
  split <;> first
    | exact ⟨_, rfl⟩
    | simp_all

/-- A swap that fails keeps a complete tree out of reach of the guards, unless it
puts what is left of the backup back at the root. -/
theorem replaceRoot_error {faults : BlessFaults} {old staged : Tree Bytes} {message : String}
    {next : BaselineDisk} (hstaged : staged ≠ .directory [])
    (hreplaced : replaceRoot faults (.swapping old staged) = (.error message, next)) :
    next.Guarded old staged ∨ ∃ leftover, faults.RestoresLeftover leftover ∧
      next = .swapping leftover staged := by
  unfold replaceRoot BaselineDisk.swapping at hreplaced
  rw [renameDirectory_absent] at hreplaced
  cases hpreserve : faults.fails .preserveRoot with
  | some reason =>
      simp only [hpreserve] at hreplaced
      cases hreplaced
      exact Or.inl (Or.inl rfl)
  | none =>
      simp only [hpreserve, renameDirectory_absent] at hreplaced
      cases hinstall : faults.fails .installStaging with
      | some reason =>
          -- The old tree is complete in the backup, whether or not it can be moved back.
          simp only [hinstall] at hreplaced
          cases hrollback : faults.fails .rollback with
          | none =>
              simp only [hrollback] at hreplaced
              cases hreplaced
              exact Or.inl (Or.inl rfl)
          | some reason =>
              simp only [hrollback] at hreplaced
              cases hreplaced
              exact Or.inl (Or.inr (Or.inr (Or.inl ⟨rfl, rfl⟩)))
      | none =>
          simp only [hinstall, removeDirAll] at hreplaced
          rcases hremoval : faults.removal .backup with _ | ⟨reason, leftover⟩
          · simp [hremoval] at hreplaced
          simp only [hremoval, renameDirectory_absent] at hreplaced
          cases hmove : faults.fails .moveNew with
          | some reason =>
              -- The new tree stays at the root, which nothing else can replace.
              obtain ⟨_, hoccupied⟩ :=
                renameDirectory_occupied (faults.fails .restoreOld) leftover hstaged
              simp only [hmove, hoccupied] at hreplaced
              cases hreplaced
              exact Or.inl (Or.inr (Or.inl rfl))
          | none =>
              simp only [hmove] at hreplaced
              rcases leftover with _ | leftover
              · rw [show renameDirectory (faults.fails .restoreOld) none none =
                  .error ((faults.fails .restoreOld).getD "No such file or directory") by
                    cases faults.fails .restoreOld <;> rfl] at hreplaced
                cases hreplaced
                exact Or.inl (Or.inr (Or.inr (Or.inr ⟨rfl, rfl⟩)))
              · rw [renameDirectory_absent] at hreplaced
                cases hrestore : faults.fails .restoreOld with
                | some reason =>
                    simp only [hrestore] at hreplaced
                    cases hreplaced
                    exact Or.inl (Or.inr (Or.inr (Or.inr ⟨rfl, rfl⟩)))
                | none =>
                    simp only [hrestore] at hreplaced
                    cases hreplaced
                    exact Or.inr ⟨leftover,
                      ⟨hpreserve, hinstall, ⟨_, hremoval⟩, hmove, hrestore⟩, rfl⟩

/-- The swap that puts a leftover back ends in failure. -/
theorem replaceRoot_of_restoresLeftover {faults : BlessFaults} {leftover : Tree Bytes}
    (old staged : Tree Bytes) (hrestores : faults.RestoresLeftover leftover) :
    ∃ message, replaceRoot faults (.swapping old staged) =
      (.error message, .swapping leftover staged) := by
  obtain ⟨hpreserve, hinstall, ⟨reason, hremoval⟩, hmove, hrestore⟩ := hrestores
  refine ⟨s!"failed to remove baseline backup after commit: {reason}", ?_⟩
  simp [replaceRoot, BaselineDisk.swapping, renameDirectory_absent, removeDirAll, hpreserve,
    hinstall, hremoval, hmove, hrestore, Except.toBool]

/-- Dropping the guards leaves the baselines alone. -/
@[simp] theorem dropGuards_root (faults : BlessFaults) (disk : BaselineDisk) :
    (dropGuards faults disk).root = disk.root := rfl

/-- The guards leave alone what no armed guard covers. -/
theorem Recoverable_of_guarded {faults : BlessFaults} {disk : BaselineDisk}
    {old staged : Tree Bytes} {new : Except String (Tree Bytes)} (hnew : new = .ok staged)
    (hguarded : disk.Guarded old staged) :
    (dropGuards faults disk).Recoverable (some old) new := by
  rcases hguarded with hroot | hroot | ⟨hbackup, harmed⟩ | ⟨hstaging, harmed⟩
  · exact Or.inl hroot
  · exact Or.inr (Or.inr ⟨staged, hnew, Or.inl hroot⟩)
  · refine Or.inr (Or.inl ⟨old, rfl, Or.inr (Or.inl ?_)⟩)
    simp [dropGuards, harmed, hbackup]
  · refine Or.inr (Or.inr ⟨staged, hnew, Or.inr (Or.inr ?_)⟩)
    simp [dropGuards, harmed, hstaging]

/-- With a leftover at the root, only an incomplete removal of the staged tree can
keep a complete tree. -/
theorem Recoverable_leftover_iff {faults : BlessFaults} {old staged leftover : Tree Bytes}
    {new : Except String (Tree Bytes)} (hnew : new = .ok staged)
    (hrestores : faults.RestoresLeftover leftover) :
    (dropGuards faults (.swapping leftover staged)).Recoverable (some old) new ↔
      ¬ faults.LosesTrees old staged leftover := by
  -- What the guards leave at the three places.
  have hstaging : (dropGuards faults (.swapping leftover staged)).staging =
      (faults.removal .droppedStaging).bind Prod.snd := by
    simp only [dropGuards, BaselineDisk.swapping, removeDirAll, if_true]
    rcases faults.removal .droppedStaging with _ | ⟨_, _⟩ <;> rfl
  have hbackup : (dropGuards faults (.swapping leftover staged)).backup = none := by
    simp [dropGuards, BaselineDisk.swapping, removeDirAll]
  have hroot : (dropGuards faults (.swapping leftover staged)).root = some leftover := rfl
  subst hnew
  simp only [BaselineDisk.Recoverable, BaselineDisk.Holds, hroot, hbackup, hstaging]
  constructor
  · rintro hkept ⟨_, hold, hnew, hdropped⟩
    have hgone : ∀ tree, (faults.removal .droppedStaging).bind Prod.snd = some tree →
        tree ≠ old ∧ tree ≠ staged := by
      intro tree htree
      obtain ⟨⟨message, kept⟩, hremoval, rfl⟩ := Option.bind_eq_some_iff.mp htree
      simpa using hdropped message (some tree) hremoval
    -- The root holds neither tree, so the one that is held is in the staging directory.
    rcases hkept with hkept | ⟨tree, htree, hkept⟩ | ⟨tree, htree, hkept⟩
    · exact hold (Option.some.inj hkept)
    · cases htree
      rcases hkept with hkept | hkept | hkept
      · exact hold (Option.some.inj hkept)
      · cases hkept
      · exact (hgone _ hkept).1 rfl
    · cases htree
      rcases hkept with hkept | hkept | hkept
      · exact hnew (Option.some.inj hkept)
      · cases hkept
      · exact (hgone _ hkept).2 rfl
  · intro hkept
    by_contra hlost
    refine hkept ⟨hrestores, ?_, ?_, ?_⟩
    · rintro rfl
      exact hlost (Or.inl rfl)
    · rintro rfl
      exact hlost (Or.inr (Or.inr ⟨_, rfl, Or.inl rfl⟩))
    · intro message kept hremoval
      constructor
      · rintro rfl
        exact hlost (Or.inr (Or.inl ⟨_, rfl, Or.inr (Or.inr (by rw [hremoval]; rfl))⟩))
      · rintro rfl
        exact hlost (Or.inr (Or.inr ⟨_, rfl, Or.inr (Or.inr (by rw [hremoval]; rfl))⟩))

/-- What is staged for at least one update is not an empty directory. -/
theorem StagesBaselines.ne_empty {codec : YamlCodec} {faults : BlessFaults}
    {rootName : Option String} {root : Option (Tree Bytes)} {updates : List BaselineUpdate}
    {staged : Tree Bytes} (hstages : StagesBaselines codec faults rootName root updates staged) :
    staged ≠ .directory [] := by
  rintro rfl
  obtain ⟨update, hupdate⟩ := List.exists_mem_of_ne_nil _ hstages.selected
  obtain ⟨copied, hcopied, ⟨seen, final⟩, hfold, hfinal⟩ := by
    simpa only [stageBaselines, except_bind_eq_ok] using hstages.staged
  cases hfinal
  obtain ⟨source, _, hcontent, _⟩ := stageUpdates_holdsDocument hfold update hupdate
  cases hpath : update.relativePath with
  | nil => simp [hpath, Tree.contentAt?, Tree.fileAt?, Tree.find?] at hcontent
  | cons name rest => simp [hpath, Tree.contentAt?, Tree.fileAt?, Tree.find?] at hcontent

/-- After staging, the transaction is the swap followed by its guards. -/
theorem blessBaselinesTransactionally_of_stages {codec : YamlCodec} {faults : BlessFaults}
    {rootName : Option String} {old staged : Tree Bytes} {updates : List BaselineUpdate}
    (hstages : StagesBaselines codec faults rootName (some old) updates staged)
    {message : String} {next : BaselineDisk}
    (hreplaced : replaceRoot faults (.swapping old staged) = (.error message, next)) :
    blessBaselinesTransactionally codec faults rootName (some old) updates =
      (.error message, dropGuards faults next) := by
  obtain ⟨hselected, hnamed, hparent, hstaging, hstaged⟩ := hstages
  unfold blessBaselinesTransactionally
  simp only [hselected, hnamed, if_false, BlessFaults.attempt, hparent, hstaging, hstaged,
    installStaged]
  rw [show replaceRoot faults ⟨some old, some staged, none, true, true⟩ = _ from hreplaced]

/-- A transaction that fails leaves the root as it was, or fails in the swap. -/
theorem blessBaselinesTransactionally_error {codec : YamlCodec} {faults : BlessFaults}
    {rootName : Option String} {root : Option (Tree Bytes)} {updates : List BaselineUpdate}
    {message : String} {disk : BaselineDisk}
    (hblessed : blessBaselinesTransactionally codec faults rootName root updates =
      (.error message, disk)) :
    disk.root = root ∨ ∃ old staged next, root = some old ∧
      StagesBaselines codec faults rootName root updates staged ∧
      replaceRoot faults (.swapping old staged) = (.error message, next) ∧
      disk = dropGuards faults next := by
  unfold blessBaselinesTransactionally at hblessed
  dsimp only at hblessed
  split at hblessed
  · cases hblessed
    exact Or.inl rfl
  next hselected =>
    split at hblessed
    · cases hblessed
      exact Or.inl rfl
    next hnamed =>
      split at hblessed
      · cases hblessed
        exact Or.inl rfl
      · cases hblessed
        exact Or.inl rfl
      next hparent hstaging =>
        split at hblessed
        · cases hblessed
          exact Or.inl rfl
        next staged hstaged =>
          have hstages : StagesBaselines codec faults rootName root updates staged :=
            ⟨hselected, hnamed, attempt_eq_ok.mp hparent, attempt_eq_ok.mp hstaging, hstaged⟩
          split at hblessed
          next hinstalled =>
            cases hblessed
            -- Without an old tree there is nothing to put back.
            cases root with
            | none =>
                left
                unfold installStaged at hinstalled
                dsimp only at hinstalled
                split at hinstalled <;> cases hinstalled
                rfl
            | some old => exact Or.inr ⟨old, staged, _, rfl, hstages, hinstalled, rfl⟩
          · cases hblessed

/-- A failed transaction keeps the old or the new tree exactly when it does not
put an incomplete backup back at the root. -/
theorem blessBaselinesTransactionally_recoverable_iff (codec : YamlCodec) (faults : BlessFaults)
    (rootName : Option String) (root : Option (Tree Bytes)) (updates : List BaselineUpdate) :
    (∀ message disk, blessBaselinesTransactionally codec faults rootName root updates =
        (.error message, disk) →
      disk.Recoverable root (stageBaselines codec faults root updates)) ↔
    ∀ old staged leftover, root = some old →
      StagesBaselines codec faults rootName root updates staged →
      ¬ faults.LosesTrees old staged leftover := by
  constructor
  · rintro hkept old staged leftover rfl hstages hlost
    obtain ⟨message, hreplaced⟩ :=
      replaceRoot_of_restoresLeftover old staged hlost.restores
    have hblessed := blessBaselinesTransactionally_of_stages hstages hreplaced
    exact (Recoverable_leftover_iff hstages.staged hlost.restores).mp
      (hkept _ _ hblessed) hlost
  · intro hcomplete message disk hblessed
    obtain hroot | ⟨old, staged, next, rfl, hstages, hreplaced, rfl⟩ :=
      blessBaselinesTransactionally_error hblessed
    · exact Or.inl hroot
    · obtain hguarded | ⟨leftover, hrestores, rfl⟩ := replaceRoot_error hstages.ne_empty hreplaced
      · exact Recoverable_of_guarded hstages.staged hguarded
      · exact (Recoverable_leftover_iff hstages.staged hrestores).mpr
          (hcomplete old staged leftover rfl hstages)

def lockedEntry : String × Tree Bytes := ("locked", .directory [("entry", .file [])])

def lockedTree : Tree Bytes := .directory [("sentinel", .file []), lockedEntry]

/-- The removal deletes the sentinel and stops at the read-only directory. -/
def lockedFaults : BlessFaults where
  fails _ := none
  removal
    | .backup => some ("Permission denied", some (.directory [lockedEntry]))
    | _ => none

theorem lockedFaults_restoresLeftover :
    lockedFaults.RestoresLeftover (.directory [lockedEntry]) :=
  ⟨rfl, rfl, ⟨_, rfl⟩, rfl, rfl⟩

def lockedStaged : Tree Bytes :=
  .directory [("sentinel", .file []), lockedEntry,
    ("2026-07-28", .directory [("modern", .directory [("client", .directory
      [("external-data-plane.yml", .file failingSource)])])])]

theorem lockedTree_stages : StagesBaselines failingCodec lockedFaults (some "conformance")
    (some lockedTree) [failingUpdate] lockedStaged := by
  have hsize : failingSource.length ≤ maxBaselineBytes := by decide +kernel
  have hstage : stageUpdate failingCodec lockedFaults ([], lockedTree) failingUpdate =
      .ok ([failingUpdate.relativePath], lockedStaged) :=
    stageUpdate_ok_iff.mpr ⟨List.not_mem_nil, rfl, failingSource, lockedStaged, failingDocument,
      by simp [failingCodec, YamlCodec.single, failingUpdate], rfl,
      readBaselineWithMetadata_ok_iff.mpr ⟨hsize, by simp [failingCodec, YamlCodec.single],
        List.pairwise_singleton _ _⟩, rfl⟩
  have hroot : stageRoot lockedFaults (some lockedTree) = .ok lockedTree :=
    stageRoot_ok_iff.mpr ⟨rfl, Or.inr ⟨_, rfl, rfl, rfl, rfl⟩⟩
  refine ⟨List.cons_ne_nil _ _, Option.some_ne_none _, rfl, rfl, ?_⟩
  rw [stageBaselines, hroot]
  simp only [bind, Except.bind, List.foldlM, hstage, pure, Except.pure]

theorem lockedFaults_losesTrees :
    lockedFaults.LosesTrees lockedTree lockedStaged (.directory [lockedEntry]) :=
  ⟨lockedFaults_restoresLeftover, by simp [lockedTree], by simp [lockedStaged], nofun⟩

/-- Blessing over a tree with a read-only directory can leave part of it only. -/
theorem blessBaselinesTransactionally_loses_trees :
    ¬ ∀ (codec : YamlCodec) (faults : BlessFaults) (rootName : Option String)
      (root : Option (Tree Bytes)) (updates : List BaselineUpdate) (message : String)
      (disk : BaselineDisk),
      blessBaselinesTransactionally codec faults rootName root updates = (.error message, disk) →
        disk.Recoverable root (stageBaselines codec faults root updates) := by
  intro hkept
  obtain ⟨_, hreplaced⟩ :=
    replaceRoot_of_restoresLeftover lockedTree lockedStaged lockedFaults_restoresLeftover
  have hblessed := blessBaselinesTransactionally_of_stages lockedTree_stages hreplaced
  have hrecoverable := hkept _ _ _ _ _ _ _ hblessed
  exact (Recoverable_leftover_iff lockedTree_stages.staged lockedFaults_restoresLeftover).mp
    hrecoverable lockedFaults_losesTrees

end CfIntegration.Conformance
