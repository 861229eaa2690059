import Mathlib.Data.List.Infix
import CfIntegration.Foundation.DirectoryWalk
import CfIntegration.Foundation.FileName

/-! # The audit of load reports

After a load run every regular file below the report directory is read. Files that
contain the bearer token are removed, and the audit fails if there were any. It
keeps going after a failed read or removal and reports the first of them.
-/

namespace CfIntegration.Performance

abbrev Bytes := List UInt8

/-- Every run of a length in some bytes. -/
def windows (size : Nat) (bytes : Bytes) : List Bytes :=
  (bytes.tails.map (List.take size)).filter fun window => window.length = size

def containsBytes (haystack needle : Bytes) : Bool :=
  !needle.isEmpty && (windows needle.length haystack).any (· == needle)

theorem containsBytes_iff {haystack needle : Bytes} :
    containsBytes haystack needle = true ↔ needle ≠ [] ∧ needle <:+: haystack := by
  have hwindow : (windows needle.length haystack).any (· == needle) = true ↔
      needle <:+: haystack := by
    simp only [windows, List.any_eq_true, List.mem_filter, List.mem_map, List.mem_tails,
      beq_iff_eq, decide_eq_true_eq]
    constructor
    · intro hfound
      obtain ⟨window, ⟨⟨suffix, hsuffix, rfl⟩, -⟩, hwindow⟩ := hfound
      rw [← hwindow]
      exact (List.take_prefix _ _).isInfix.trans hsuffix.isInfix
    · intro hinfix
      obtain ⟨suffix, hprefix, hsuffix⟩ := List.infix_iff_prefix_suffix.mp hinfix
      have htake := List.prefix_iff_eq_take.mp hprefix
      exact ⟨needle, ⟨⟨suffix, hsuffix, htake.symm⟩, rfl⟩, rfl⟩
  unfold containsBytes
  rw [Bool.and_eq_true, hwindow]
  simp

/-- The error of each file operation, by the path it is about; a path is the list of
names below the report directory. -/
structure AuditEnv (ν : Type) where
  /-- A directory cannot be opened. -/
  readDir : List ν → Option String
  /-- A directory does not deliver the entry. -/
  entry : List ν → Option String
  /-- A directory fails after its last entry. -/
  ending : List ν → Option String
  fileType : List ν → Option String
  read : List ν → Option String
  remove : List ν → Option String

inductive AuditFailure (ν : Type) where
  | removalFailed (path : List ν) (error : String)
  | removed (count : Nat)
  | inspectionFailed (path : List ν) (error : String)
  | workerFailed

def AuditFailure.message {ν : Type} (debug : List ν → String) : AuditFailure ν → String
  | .removalFailed path _ => "failed to remove tainted Locust report " ++ debug path
  | .removed count => "removed " ++ toString count ++
      " Locust report artifact(s) because they contained a bearer credential"
  | .inspectionFailed path _ => "failed to inspect Locust report " ++ debug path
  | .workerFailed => "a Locust worker exited with a failure"

def failedProcessMarker : Bytes := "Shutting down (exit code 1)".toList.map Char.toUInt8

/-- The first error and the path it is about. -/
abbrev FirstError (ν : Type) := Option (List ν × String)

def FirstError.note {ν : Type} (first : FirstError ν) (path : List ν) (error : String) :
    FirstError ν :=
  first.or (some (path, error))

@[simp] theorem FirstError.note_ne_none {ν : Type} (first : FirstError ν) (path : List ν)
    (error : String) : first.note path error ≠ none := by
  cases first <;> simp [FirstError.note]

section Walk

variable {ν : Type} (env : AuditEnv ν)

structure Collection (ν : Type) where
  files : List (List ν)
  firstError : FirstError ν

def Collection.note (found : Collection ν) (path : List ν) (error : String) : Collection ν :=
  { found with firstError := found.firstError.note path error }

/-- Note the error of an operation, or go on without one. -/
def Collection.noteOr (found : Collection ν) (path : List ν) (error : Option String)
    (next : Collection ν) : Collection ν :=
  match error with
  | some error => found.note path error
  | none => next

mutual

/-- An entry of known type: a directory is walked, a file is kept, anything else skipped. -/
def collectReportEntry (path : List ν) : Tree Bytes ν → Collection ν → Collection ν
  | .directory entries, found =>
      found.noteOr path (env.readDir path) (collectReportEntries path entries found)
  | .file _, found => { found with files := found.files ++ [path] }
  | .symlink, found | .special, found => found

/-- The entries a directory delivers, and the error it may end with. -/
def collectReportEntries (directory : List ν) :
    List (ν × Tree Bytes ν) → Collection ν → Collection ν
  | [], found => found.noteOr directory (env.ending directory) found
  | (name, tree) :: rest, found =>
      let path := directory ++ [name]
      collectReportEntries directory rest <|
        found.noteOr directory (env.entry path) <|
          found.noteOr path (env.fileType path) <| collectReportEntry path tree found

end

/-- The files below a directory that can be opened. -/
def collectReportFiles (directory : List ν) (entries : List (ν × Tree Bytes ν))
    (found : Collection ν) : Collection ν :=
  found.noteOr directory (env.readDir directory) (collectReportEntries env directory entries found)

/-- A path that the directories above it deliver. -/
structure Listed (path : List ν) : Prop where
  directories : ∀ front, front <+: path → front ≠ path → env.readDir front = none
  entries : ∀ front, front <+: path → front ≠ [] → env.entry front = none ∧
    env.fileType front = none

/-- A walk over some files adds some of them in their order, every listed one, and all of
them if it notes no error. -/
def Collects (files : List (List ν)) (found after : Collection ν) : Prop :=
  ∃ kept, after.files = found.files ++ kept ∧ kept.Sublist files ∧
    (∀ path ∈ files, Listed env path → path ∈ kept) ∧
    (after.firstError = none → found.firstError = none ∧ kept = files)

variable {env}

theorem Collects.refl (found : Collection ν) : Collects env [] found found :=
  ⟨[], by simp, List.Sublist.refl _, by simp, by simp⟩

theorem Collects.append {first second : List (List ν)} {found middle after : Collection ν}
    (hfirst : Collects env first found middle) (hsecond : Collects env second middle after) :
    Collects env (first ++ second) found after := by
  obtain ⟨front, hfront, hfrontSub, hfrontListed, hfrontAll⟩ := hfirst
  obtain ⟨back, hback, hbackSub, hbackListed, hbackAll⟩ := hsecond
  refine ⟨front ++ back, by rw [hback, hfront, List.append_assoc],
    hfrontSub.append hbackSub, ?_, ?_⟩
  · intro path hpath hlisted
    rcases List.mem_append.mp hpath with hpath | hpath
    · exact List.mem_append_left _ (hfrontListed path hpath hlisted)
    · exact List.mem_append_right _ (hbackListed path hpath hlisted)
  · intro hnone
    obtain ⟨hmiddle, rfl⟩ := hbackAll hnone
    obtain ⟨hfound, rfl⟩ := hfrontAll hmiddle
    exact ⟨hfound, rfl⟩

/-- Where an error is noted, no file behind it is listed. -/
theorem Collects.note {files : List (List ν)} (hfiles : ∀ path ∈ files, ¬ Listed env path)
    (found : Collection ν) (path : List ν) (error : String) :
    Collects env files found (found.note path error) :=
  ⟨[], by simp [Collection.note], List.nil_sublist _,
    fun path hpath hlisted => absurd hlisted (hfiles path hpath),
    fun hnone => absurd hnone (FirstError.note_ne_none _ _ _)⟩

/-- The paths of the files below a place. -/
abbrev pathsBelow (place : List ν) (tree : Tree Bytes ν) : List (List ν) :=
  (tree.filesBelow place).map Prod.fst

theorem prefix_of_mem_pathsBelow {tree : Tree Bytes ν} {place path : List ν}
    (hpath : path ∈ pathsBelow place tree) : place <+: path := by
  obtain ⟨⟨path, content⟩, hmem, rfl⟩ := List.mem_map.mp hpath
  exact Tree.prefix_of_mem_filesBelow hmem

theorem append_singleton_ne_nil (place : List ν) (name : ν) : place ++ [name] ≠ [] := by simp

theorem Collects.noteOr {files : List (List ν)} {found next : Collection ν} {path : List ν}
    {error : Option String} (hblocked : error ≠ none → ∀ path ∈ files, ¬ Listed env path)
    (hnext : Collects env files found next) :
    Collects env files found (found.noteOr path error next) := by
  cases error with
  | some error => exact Collects.note (hblocked (by simp)) found path error
  | none => exact hnext

/-- One listing, from what the walk collects behind each of its entries. -/
theorem collectReportEntries_collects {place : List ν} {entries : List (ν × Tree Bytes ν)}
    (hentries : ∀ entry ∈ entries, ∀ below found,
      Collects env (pathsBelow below entry.2) found (collectReportEntry env below entry.2 found))
    (found : Collection ν) :
    Collects env (entries.flatMap fun entry => pathsBelow (place ++ [entry.1]) entry.2) found
      (collectReportEntries env place entries found) := by
  induction entries generalizing found with
  | nil =>
      rw [collectReportEntries]
      exact Collects.noteOr (by simp) (Collects.refl found)
  | cons entry rest ih =>
      rcases entry with ⟨name, tree⟩
      rw [List.flatMap_cons, collectReportEntries]
      have hrest := ih fun entry hentry => hentries entry (List.mem_cons_of_mem _ hentry)
      apply Collects.append ?_ (hrest _)
      have hbelow : ∀ path ∈ pathsBelow (place ++ [name]) tree, Listed env path →
          env.entry (place ++ [name]) = none ∧ env.fileType (place ++ [name]) = none :=
        fun path hpath hlisted =>
          hlisted.entries _ (prefix_of_mem_pathsBelow hpath) (append_singleton_ne_nil _ _)
      apply Collects.noteOr
      · exact fun herror path hpath hlisted => herror (hbelow path hpath hlisted).1
      · apply Collects.noteOr
        · exact fun herror path hpath hlisted => herror (hbelow path hpath hlisted).2
        · exact hentries _ List.mem_cons_self _ found

/-- A directory that cannot be opened hides the files below it. -/
theorem openDirectory_collects {place : List ν} {entries : List (ν × Tree Bytes ν)}
    {found next : Collection ν}
    (hnext : Collects env (entries.flatMap fun entry => pathsBelow (place ++ [entry.1]) entry.2)
      found next) :
    Collects env (entries.flatMap fun entry => pathsBelow (place ++ [entry.1]) entry.2) found
      (found.noteOr place (env.readDir place) next) := by
  apply Collects.noteOr ?_ hnext
  intro herror path hpath hlisted
  obtain ⟨entry, hentry, hpath⟩ := List.mem_flatMap.mp hpath
  have hprefix := prefix_of_mem_pathsBelow hpath
  apply herror
  apply hlisted.directories place ((List.prefix_append _ _).trans hprefix)
  rintro rfl
  have hlength := hprefix.length_le
  simp at hlength

theorem pathsBelow_directory (place : List ν) (entries : List (ν × Tree Bytes ν)) :
    pathsBelow place (.directory entries) =
      entries.flatMap fun entry => pathsBelow (place ++ [entry.1]) entry.2 := by
  rw [pathsBelow, Tree.filesBelow_directory, List.map_flatMap]

theorem collectReportEntry_collects (tree : Tree Bytes ν) (place : List ν)
    (found : Collection ν) :
    Collects env (pathsBelow place tree) found (collectReportEntry env place tree found) := by
  induction tree using Tree.inductionOn generalizing place found with
  | file content =>
      rw [collectReportEntry]
      refine ⟨[place], rfl, by simp [pathsBelow, Tree.filesBelow], ?_, ?_⟩
      · intro path hpath _
        simpa [pathsBelow, Tree.filesBelow] using hpath
      · intro hnone
        exact ⟨hnone, by simp [pathsBelow, Tree.filesBelow]⟩
  | symlink =>
      rw [collectReportEntry]
      exact Collects.refl found
  | special =>
      rw [collectReportEntry]
      exact Collects.refl found
  | directory entries ih =>
      rw [collectReportEntry, pathsBelow_directory]
      exact openDirectory_collects (collectReportEntries_collects ih found)

theorem collectReportFiles_collects (entries : List (ν × Tree Bytes ν)) (place : List ν)
    (found : Collection ν) :
    Collects env (pathsBelow place (.directory entries)) found
      (collectReportFiles env place entries found) := by
  rw [pathsBelow_directory]
  apply openDirectory_collects
  apply collectReportEntries_collects
  exact fun entry _ below found => collectReportEntry_collects entry.2 below found

end Walk

section Audit

variable {ν : Type} [DecidableEq ν] [FileName ν] (env : AuditEnv ν)

structure Inspection (ν : Type) where
  tainted : List (List ν)
  failedProcess : Bool
  firstError : FirstError ν

/-- What reading a file gives. -/
def readFile (tree : Tree Bytes ν) (path : List ν) : Except String Bytes :=
  match env.read path with
  | some error => .error error
  | none =>
      match tree.fileAt? path with
      | some content => .ok content
      | none => .error "No such file or directory"

def inspectFile (tree : Tree Bytes ν) (token : Bytes) (inspection : Inspection ν)
    (path : List ν) : Inspection ν :=
  match readFile env tree path with
  | .ok content => {
      inspection with
      failedProcess := inspection.failedProcess ||
        (decide (path.getLast? = some (FileName.ofText "locust.log")) &&
          containsBytes content failedProcessMarker)
      tainted :=
        if containsBytes content token then inspection.tainted ++ [path] else inspection.tainted }
  | .error error => { inspection with firstError := inspection.firstError.note path error }

/-- The tree while tainted files are removed, and the paths that were tried. -/
structure Cleanup (ν : Type) where
  tree : Tree Bytes ν
  attempted : List (List ν)
  firstError : FirstError ν

def removeFile (cleanup : Cleanup ν) (path : List ν) : Cleanup ν :=
  let tried := { cleanup with attempted := cleanup.attempted ++ [path] }
  match env.remove path with
  | some error => { tried with firstError := cleanup.firstError.note path error }
  | none =>
      match cleanup.tree.fileAt? path with
      | some _ => { tried with tree := cleanup.tree.remove path }
      | none => { tried with
          firstError := cleanup.firstError.note path "No such file or directory" }

structure AuditOutcome (ν : Type) where
  result : Except (AuditFailure ν) Unit
  attempted : List (List ν)
  tree : Tree Bytes ν

def auditReports (directory : Tree.Directory Bytes ν) (token : Bytes) : AuditOutcome ν :=
  let tree := directory.tree
  let found := collectReportFiles env [] directory.entries ⟨[], none⟩
  let inspection := found.files.foldl (inspectFile env tree token) ⟨[], false, found.firstError⟩
  let cleanup := inspection.tainted.foldl (removeFile env) ⟨tree, [], none⟩
  { attempted := cleanup.attempted
    tree := cleanup.tree
    result :=
      match cleanup.firstError with
      | some (path, error) => .error (.removalFailed path error)
      | none =>
          if 0 < inspection.tainted.length then .error (.removed inspection.tainted.length)
          else
            match inspection.firstError with
            | some (path, error) => .error (.inspectionFailed path error)
            | none => if inspection.failedProcess then .error .workerFailed else .ok () }

/-- The file could be read and contains the token. -/
def isTainted (tree : Tree Bytes ν) (token : Bytes) (path : List ν) : Bool :=
  match readFile env tree path with
  | .ok content => containsBytes content token
  | .error _ => false

/-- The file is a log that could be read and contains the marker. -/
def isFailedLog (tree : Tree Bytes ν) (path : List ν) : Bool :=
  match readFile env tree path with
  | .ok content => decide (path.getLast? = some (FileName.ofText "locust.log")) &&
      containsBytes content failedProcessMarker
  | .error _ => false

variable {env}

/-- The inspection goes on after a file that cannot be read. -/
theorem inspectFiles_spec (tree : Tree Bytes ν) (token : Bytes) (files : List (List ν))
    (start : Inspection ν) :
    let after := files.foldl (inspectFile env tree token) start
    after.tainted = start.tainted ++ files.filter (isTainted env tree token) ∧
      (after.firstError = none → start.firstError = none ∧
        ∀ path ∈ files, ∃ content, readFile env tree path = .ok content) ∧
      (after.failedProcess = false → start.failedProcess = false ∧
        ∀ path ∈ files, isFailedLog env tree path = false) := by
  induction files generalizing start with
  | nil => simp
  | cons path rest ih =>
      rw [List.foldl_cons]
      obtain ⟨htainted, herror, hfailed⟩ := ih (inspectFile env tree token start path)
      refine ⟨htainted.trans ?_, fun hnone => ?_, fun hfalse => ?_⟩
      · unfold inspectFile
        cases hread : readFile env tree path with
        | ok content =>
            cases hcontains : containsBytes content token <;>
              simp [isTainted, hread, hcontains]
        | error => simp [isTainted, hread]
      · obtain ⟨hfirst, hrest⟩ := herror hnone
        -- An error is noted for good, so none was noted at this file.
        unfold inspectFile at hfirst
        cases hread : readFile env tree path with
        | ok content =>
            rw [hread] at hfirst
            exact ⟨hfirst, by simpa [hread] using hrest⟩
        | error error =>
            rw [hread] at hfirst
            exact absurd hfirst (FirstError.note_ne_none _ _ _)
      · obtain ⟨hfirst, hrest⟩ := hfailed hfalse
        unfold inspectFile at hfirst
        cases hread : readFile env tree path with
        | ok content =>
            rw [hread] at hfirst
            obtain ⟨hstart, hlog⟩ := Bool.or_eq_false_iff.mp hfirst
            exact ⟨hstart, by simpa [isFailedLog, hread, hlog] using hrest⟩
        | error error =>
            rw [hread] at hfirst
            exact ⟨hfirst, by simpa [isFailedLog, hread] using hrest⟩

omit [FileName ν] in
theorem fileAt?_remove_of_ne {tree : Tree Bytes ν} {path other : List ν} {content : Bytes}
    (hfile : tree.fileAt? path = some content) (hother : other ≠ path) :
    (tree.remove path).fileAt? other = tree.fileAt? other := by
  by_cases hpath : path = []
  · subst hpath
    rfl
  · rw [Tree.fileAt?_remove hpath hfile, if_neg hother]

omit [FileName ν] in
/-- Every path is tried, and a file that is not tried stays as it is. -/
theorem removeFiles_spec (paths : List (List ν)) (start : Cleanup ν) :
    let after := paths.foldl (removeFile env) start
    after.attempted = start.attempted ++ paths ∧
      ∀ path, path ∉ paths → after.tree.fileAt? path = start.tree.fileAt? path := by
  induction paths generalizing start with
  | nil => simp
  | cons tried rest ih =>
      rw [List.foldl_cons]
      obtain ⟨hattempted, htree⟩ := ih (removeFile env start tried)
      have hstep : (removeFile env start tried).attempted = start.attempted ++ [tried] ∧
          ∀ path, path ≠ tried →
            (removeFile env start tried).tree.fileAt? path = start.tree.fileAt? path := by
        unfold removeFile
        cases env.remove tried with
        | some error => simp
        | none =>
            cases hfile : start.tree.fileAt? tried with
            | some content =>
                exact ⟨rfl, fun path hpath => fileAt?_remove_of_ne hfile hpath⟩
            | none => simp
      refine ⟨by simp [hattempted, hstep.1], fun path hpath => ?_⟩
      obtain ⟨hfirst, hrest⟩ := not_or.mp (mt List.mem_cons.mpr hpath)
      rw [htree path hrest, hstep.2 path hfirst]

/-- What an audit guarantees, whatever fails on the way. -/
structure Audited (env : AuditEnv ν) (tree : Tree Bytes ν) (token : Bytes)
    (outcome : AuditOutcome ν) : Prop where
  /-- A successful audit removed nothing and found every file free of the token, and
  every log free of the marker. -/
  clean : outcome.result = .ok () → outcome.tree = tree ∧
    ∀ path content, tree.fileAt? path = some content → ¬ token <:+: content ∧
      (path.getLast? = some (FileName.ofText "locust.log") →
        ¬ failedProcessMarker <:+: content)
  /-- A listed and readable file that contains the token is tried. -/
  attempted : ∀ path content, tree.fileAt? path = some content → Listed env path →
    env.read path = none → token <:+: content → path ∈ outcome.attempted
  /-- A file without the token is not tried. -/
  spared : ∀ path content, tree.fileAt? path = some content → ¬ token <:+: content →
    path ∉ outcome.attempted
  /-- A file that was not tried stays as it is. -/
  unchanged : ∀ path, path ∉ outcome.attempted →
    outcome.tree.fileAt? path = tree.fileAt? path

omit [FileName ν] in
theorem readFile_ok {tree : Tree Bytes ν} {path : List ν} {content : Bytes}
    (hread : readFile env tree path = .ok content) : tree.fileAt? path = some content := by
  unfold readFile at hread
  cases herror : env.read path with
  | some error => simp [herror] at hread
  | none =>
      cases hfile : tree.fileAt? path with
      | none => simp [herror, hfile] at hread
      | some found => simpa [herror, hfile] using hread

/-- The files the walk keeps, and what the audit did with them. -/
theorem auditReports_spec (env : AuditEnv ν) (directory : Tree.Directory Bytes ν) (token : Bytes) :
    ∃ kept, (∀ path ∈ pathsBelow [] directory.tree, Listed env path → path ∈ kept) ∧
      (auditReports env directory token).attempted =
        kept.filter (isTainted env directory.tree token) ∧
      (∀ path, path ∉ (auditReports env directory token).attempted →
        (auditReports env directory token).tree.fileAt? path = directory.tree.fileAt? path) ∧
      ((auditReports env directory token).result = .ok () →
        (auditReports env directory token).tree = directory.tree ∧
        kept = pathsBelow [] directory.tree ∧
        (∀ path ∈ kept, isTainted env directory.tree token path = false) ∧
        (∀ path ∈ kept, ∃ content, readFile env directory.tree path = .ok content) ∧
        ∀ path ∈ kept, isFailedLog env directory.tree path = false) := by
  obtain ⟨kept, hkept, -, hlisted, hall⟩ :=
    @collectReportFiles_collects ν env directory.entries [] ⟨[], none⟩
  rw [List.nil_append] at hkept
  unfold auditReports
  generalize collectReportFiles env [] directory.entries ⟨[], none⟩ = found at hkept hall
  rcases found with ⟨files, collected⟩
  obtain rfl : files = kept := hkept
  dsimp only at hall ⊢
  obtain ⟨htainted, herror, hfailed⟩ :=
    @inspectFiles_spec ν _ _ env directory.tree token files ⟨[], false, collected⟩
  generalize files.foldl (inspectFile env directory.tree token) ⟨[], false, collected⟩ =
    inspection at htainted herror hfailed
  rcases inspection with ⟨tainted, failedProcess, firstError⟩
  obtain rfl : tainted = files.filter (isTainted env directory.tree token) := htainted
  dsimp only at herror hfailed ⊢
  obtain ⟨hattempted, htree⟩ := @removeFiles_spec ν _ env
    (files.filter (isTainted env directory.tree token)) ⟨directory.tree, [], none⟩
  refine ⟨files, hlisted, hattempted, fun path hpath => ?_, fun hok => ?_⟩
  · apply htree path
    rwa [hattempted] at hpath
  -- The checks come in the order of the source; the removal is before all of them.
  · split at hok
    · cases hok
    · split at hok
      · cases hok
      next hnone =>
        have hempty : files.filter (isTainted env directory.tree token) = [] :=
          List.length_eq_zero_iff.mp (Nat.eq_zero_of_not_pos hnone)
        split at hok
        · cases hok
        · split at hok
          · cases hok
          next hfalse =>
            obtain ⟨hcollected, hread⟩ := herror rfl
            obtain ⟨-, hlogs⟩ := hfailed (by simpa using hfalse)
            refine ⟨by rw [hempty]; rfl, (hall hcollected).2, ?_, hread, hlogs⟩
            simpa [List.filter_eq_nil_iff] using hempty

end Audit

def sampleToken : Bytes := "token".toList.map Char.toUInt8

/-- A report, and a directory with a report of a name that is not text. -/
def sampleReports : Tree.Directory Bytes FileName.OsName where
  entries := [(FileName.ofText "locust.html", .file sampleToken),
    (FileName.ofText "nested", .directory [(⟨[0xff]⟩, .file (0 :: sampleToken)),
      (FileName.ofText "stats.csv", .file [0])])]
  distinct := by
    have hnested : (Tree.directory [(⟨[0xff]⟩, .file (0 :: sampleToken)),
        (FileName.ofText "stats.csv", .file [0])] : Tree Bytes FileName.OsName).Distinct := by
      apply Tree.Distinct.directory (by decide)
      simp [Tree.Distinct.file]
    apply Tree.Distinct.directory (by decide)
    simp [Tree.Distinct.file, hnested]

/-- The statistics cannot be read and the first report cannot be removed. -/
def sampleEnv : AuditEnv FileName.OsName where
  readDir _ := none
  entry _ := none
  ending _ := none
  fileType _ := none
  read path := if path.length = 2 && path.getLast? = some (FileName.ofText "stats.csv") then
    some "Permission denied" else none
  remove path := if path.length = 1 then some "Read-only file system" else none

end CfIntegration.Performance
