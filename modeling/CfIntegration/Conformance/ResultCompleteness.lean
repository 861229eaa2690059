import CfIntegration.Foundation.DirectoryWalk
import CfIntegration.Conformance.ResultLoading

/-! # Completeness of loaded results

Loading drops no result, invents none and merges none: the results of a tree are
its eligible `checks.json` files, whatever the order of its listings.
-/

namespace CfIntegration.Conformance

section Loading

variable {ν : Type} [LinearOrder ν] [FileName ν]

/-- The text of the directory name that a file's scenario is taken from. -/
def resultDirectory (rootName : Option ν) (path : List ν) : Option String :=
  (if path.dropLast = [] then rootName else path.dropLast.getLast?).bind FileName.toStr

def isChecksFile (file : CheckFile ν) : Bool :=
  file.1.getLast? = some (FileName.ofText "checks.json")

def HasPrefix (directoryPrefix : Option String) (name : String) : Prop :=
  ∀ expected ∈ directoryPrefix, expected.toList <+: name.toList

/-- A `checks.json` below real directories, in a directory with the required prefix. -/
structure Eligible (rootName : Option ν) (directoryPrefix : Option String) (tree : Tree Bytes ν)
    (path : List ν) : Prop where
  file : ∃ content, tree.fileAt? path = some content
  checks : path.getLast? = some (FileName.ofText "checks.json")
  parent : ∃ name, resultDirectory rootName path = some name ∧ HasPrefix directoryPrefix name

/-- The scenario that the directory name of a file encodes. -/
def Encodes (rootName : Option ν) (directoryPrefix : Option String) (path : List ν)
    (scenario : String) : Prop :=
  ∃ name, resultDirectory rootName path = some name ∧
    scenarioFromResultDirectory name.toList (directoryPrefix.map String.toList) =
      .ok scenario.toList

omit [LinearOrder ν] in
/-- A path encodes one scenario at most. -/
theorem Encodes.unique {rootName : Option ν} {directoryPrefix : Option String} {path : List ν}
    {scenario other : String} (hscenario : Encodes rootName directoryPrefix path scenario)
    (hother : Encodes rootName directoryPrefix path other) : scenario = other := by
  obtain ⟨name, hname, hscenario⟩ := hscenario
  obtain ⟨otherName, hotherName, hother⟩ := hother
  obtain rfl : name = otherName := Option.some.inj (hname.symm.trans hotherName)
  exact String.toList_inj.mp (Except.ok.inj (hscenario.symm.trans hother))

/-- The `checks.json` files behind one entry of a directory. -/
def entryFiles (directory : List ν) (name : ν) : Tree Bytes ν → List (CheckFile ν)
  | .symlink | .special => []
  | .directory entries => collectCheckFiles (directory ++ [name]) (.directory entries)
  | .file content =>
      if name = FileName.ofText "checks.json" then [(directory ++ [name], content)] else []

theorem collectEntries_eq (directory : List ν) (entries : List (ν × Tree Bytes ν)) :
    collectEntries directory entries =
      entries.map fun entry => (entry.1, entryFiles directory entry.1 entry.2) := by
  induction entries with
  | nil => rfl
  | cons entry rest ih =>
      rcases entry with ⟨name, tree⟩
      cases tree <;> rw [collectEntries, ih] <;> rfl

/-- A walk of one directory, from its walks behind each entry. -/
theorem collectCheckFiles_perm_of_entries {place : List ν} {entries : List (ν × Tree Bytes ν)}
    (hentries : ∀ entry ∈ entries, (entryFiles place entry.1 entry.2).Perm
      ((entry.2.filesBelow (place ++ [entry.1])).filter isChecksFile)) :
    (collectCheckFiles place (.directory entries)).Perm
      (((Tree.directory entries).filesBelow place).filter isChecksFile) := by
  rw [collectCheckFiles, collectEntries_eq, Tree.filesBelow_directory, List.filter_flatMap]
  apply ((List.perm_insertionSort _ _).flatMap_right _).trans
  rw [List.flatMap_map]
  exact List.Perm.flatMap_left entries hentries

/-- The checks files below an entry, in the order of the directory listing. -/
theorem entryFiles_perm (tree : Tree Bytes ν) (place : List ν) (name : ν) :
    (entryFiles place name tree).Perm
      ((tree.filesBelow (place ++ [name])).filter isChecksFile) := by
  induction tree using Tree.inductionOn generalizing place name with
  | file content =>
      rw [entryFiles, Tree.filesBelow, List.filter_singleton]
      by_cases hname : name = FileName.ofText "checks.json" <;> simp [isChecksFile, hname]
  | symlink => rfl
  | special => rfl
  | directory entries ih =>
      rw [entryFiles]
      exact collectCheckFiles_perm_of_entries fun entry hentry => ih entry hentry _ _

/-- The walk finds every `checks.json` once. -/
theorem collectCheckFiles_perm (entries : List (ν × Tree Bytes ν)) (place : List ν) :
    (collectCheckFiles place (.directory entries)).Perm
      (((Tree.directory entries).filesBelow place).filter isChecksFile) :=
  collectCheckFiles_perm_of_entries fun entry _ => entryFiles_perm entry.2 place entry.1

/-- The files of a root directory, as they are loaded. -/
def sortedCheckFiles (directory : Tree.Directory Bytes ν) : List (CheckFile ν) :=
  (collectCheckFiles [] directory.tree).insertionSort fun left right => left.1 ≤ right.1

/-- The checks files are the regular files of that name. -/
theorem mem_sortedCheckFiles {directory : Tree.Directory Bytes ν} {file : CheckFile ν} :
    file ∈ sortedCheckFiles directory ↔
      directory.tree.fileAt? file.1 = some file.2 ∧
        file.1.getLast? = some (FileName.ofText "checks.json") := by
  have hwalk := collectCheckFiles_perm directory.entries []
  unfold sortedCheckFiles
  rw [List.mem_insertionSort, Tree.Directory.tree, hwalk.mem_iff, List.mem_filter]
  have hfile := @Tree.mem_files Bytes ν _ _ directory.distinct file.1 file.2
  exact and_congr hfile (by simp [isChecksFile])

/-- The checks files are in the order of their paths. -/
theorem pairwise_sortedCheckFiles (directory : Tree.Directory Bytes ν) :
    (sortedCheckFiles directory).Pairwise fun left right => left.1 ≤ right.1 := by
  have htotal : Std.Total fun left right : CheckFile ν => left.1 ≤ right.1 :=
    ⟨fun left right => le_total left.1 right.1⟩
  have htrans : IsTrans (CheckFile ν) fun left right => left.1 ≤ right.1 :=
    ⟨fun _ _ _ hleft hright => hleft.trans hright⟩
  exact List.pairwise_insertionSort _ _

/-- Another order of the listings gives the same files in the same order. -/
theorem sortedCheckFiles_reordered {directory other : Tree.Directory Bytes ν}
    (hreordered : directory.tree.Reordered other.tree) :
    sortedCheckFiles other = sortedCheckFiles directory := by
  apply List.Perm.eq_of_pairwise ?_ (pairwise_sortedCheckFiles other)
    (pairwise_sortedCheckFiles directory)
  · apply (List.perm_insertionSort _ _).trans
    apply List.Perm.trans ?_ (List.perm_insertionSort _ _).symm
    apply (collectCheckFiles_perm other.entries []).trans
    apply List.Perm.trans ?_ (collectCheckFiles_perm directory.entries []).symm
    exact ((hreordered.filesBelow []).symm).filter _
  · intro left right hleft hright hle hge
    have hpath := le_antisymm hle hge
    have hfiles := hreordered.filesBelow []
    rcases left with ⟨path, content⟩
    rcases right with ⟨_, found⟩
    obtain rfl : path = _ := hpath
    have hother := (Tree.mem_files other.distinct).mpr (mem_sortedCheckFiles.mp hleft).1
    have hsame := (Tree.mem_files directory.distinct).mp (hfiles.mem_iff.mpr hother)
    obtain rfl : content = found :=
      Option.some.inj (hsame.symm.trans (mem_sortedCheckFiles.mp hright).1)
    rfl

section Files

variable (parseChecks : Bytes → Except String (List ConformanceCheck)) (rootName : Option ν)
  (directoryPrefix : Option String)

/-- What one eligible file is loaded as. -/
structure Yields (file : CheckFile ν) (result : ConformanceScenarioResult ν) : Prop where
  parent : ∃ name, resultDirectory rootName file.1 = some name ∧ HasPrefix directoryPrefix name
  encoded : Encodes rootName directoryPrefix file.1 result.scenario
  checks : parseChecks file.2 = .ok result.checks
  source : result.source = file.1

/-- A file of another kind of directory is passed over. -/
def PassedOver (file : CheckFile ν) : Prop :=
  ∃ name, resultDirectory rootName file.1 = some name ∧ ¬ HasPrefix directoryPrefix name

variable {parseChecks rootName directoryPrefix}

omit [LinearOrder ν] in
/-- What loading one file does when it does not fail. -/
theorem loadCheckFile_ok {scenarios after : OrderedMap String (ConformanceScenarioResult ν)}
    {file : CheckFile ν}
    (hloaded : loadCheckFile parseChecks rootName directoryPrefix scenarios file = .ok after) :
    PassedOver rootName directoryPrefix file ∧ after = scenarios ∨
      ∃ result, Yields parseChecks rootName directoryPrefix file result ∧
        scenarios.find? result.scenario = none ∧
        after = scenarios.insert result.scenario result := by
  rcases file with ⟨path, content⟩
  unfold loadCheckFile at hloaded
  dsimp only at hloaded
  split at hloaded
  next directoryName hname =>
    have hparent : resultDirectory rootName path = some directoryName := hname
    split at hloaded
    -- The name lacks the prefix: the file is passed over.
    next hskipped =>
      refine .inl ⟨⟨directoryName, hparent, fun hnamed => ?_⟩, (Except.ok.inj hloaded).symm⟩
      cases directoryPrefix with
      | none => cases hskipped
      | some expected => simp [hnamed expected rfl] at hskipped
    next hkept =>
      have hnamed : HasPrefix directoryPrefix directoryName := by
        intro expected hexpected
        cases hexpected
        simpa using hkept
      cases hscenario : scenarioFromResultDirectory directoryName.toList
          (directoryPrefix.map String.toList) with
      | error failure =>
          rw [hscenario] at hloaded
          cases failure <;> cases hloaded
      | ok scenario =>
          rw [hscenario] at hloaded
          simp only [except_bind_eq_ok, bailIf_eq_ok] at hloaded
          -- The file is read, and its scenario is not in the results yet.
          obtain ⟨_, hok, -, -, checks, hchecks, -, hfresh, hafter⟩ := hloaded
          cases hok
          refine .inr ⟨⟨String.ofList scenario, checks, path⟩, ⟨⟨directoryName, hparent, hnamed⟩,
            ⟨directoryName, hparent, by rwa [String.toList_ofList]⟩, hchecks, rfl⟩, ?_,
            (Except.ok.inj hafter).symm⟩
          simpa using hfresh
  next => cases hloaded

/-- What the files loaded so far have become. -/
structure LoadedFiles (parseChecks : Bytes → Except String (List ConformanceCheck))
    (rootName : Option ν) (directoryPrefix : Option String) (files : List (CheckFile ν))
    (scenarios : OrderedMap String (ConformanceScenarioResult ν)) : Prop where
  /-- Each result is that of a file, under its scenario. -/
  results : ∀ scenario result, scenarios.find? scenario = some result →
    result.scenario = scenario ∧
      ∃ file ∈ files, Yields parseChecks rootName directoryPrefix file result
  /-- Each file was passed over or has its result. -/
  files : ∀ file ∈ files, PassedOver rootName directoryPrefix file ∨
    ∃ result, Yields parseChecks rootName directoryPrefix file result ∧
      scenarios.find? result.scenario = some result

omit [LinearOrder ν] in
/-- One more file that loads adds the scenario that its path encodes. -/
theorem LoadedFiles.step {files : List (CheckFile ν)} {file : CheckFile ν}
    {scenarios after : OrderedMap String (ConformanceScenarioResult ν)}
    (hfiles : LoadedFiles parseChecks rootName directoryPrefix files scenarios)
    (hloaded : loadCheckFile parseChecks rootName directoryPrefix scenarios file = .ok after) :
    LoadedFiles parseChecks rootName directoryPrefix (files ++ [file]) after := by
  rcases loadCheckFile_ok hloaded with ⟨hpassed, rfl⟩ | ⟨result, hyields, hfresh, rfl⟩
  · constructor
    · intro scenario result hfound
      obtain ⟨hscenario, other, hother, hyields⟩ := hfiles.results scenario result hfound
      exact ⟨hscenario, other, List.mem_append_left _ hother, hyields⟩
    · intro other hother
      rcases List.mem_append.mp hother with hother | hother
      · exact hfiles.files other hother
      · rw [List.mem_singleton.mp hother]
        exact .inl hpassed
  · constructor
    · intro scenario found hfound
      rw [OrderedMap.find?_insert] at hfound
      split at hfound
      next hscenario =>
        cases hfound
        exact ⟨hscenario.symm, file, List.mem_append_right _ List.mem_cons_self, hyields⟩
      next =>
        obtain ⟨hscenario, other, hother, hyields⟩ := hfiles.results scenario found hfound
        exact ⟨hscenario, other, List.mem_append_left _ hother, hyields⟩
    · intro other hother
      rcases List.mem_append.mp hother with hother | hother
      · rcases hfiles.files other hother with hpassed | ⟨found, hfound, hresult⟩
        · exact .inl hpassed
        · refine .inr ⟨found, hfound, ?_⟩
          -- An earlier result is not hidden: its scenario was not free.
          have hne : found.scenario ≠ result.scenario := by
            intro hsame
            rw [hsame, hfresh] at hresult
            cases hresult
          rw [OrderedMap.find?_insert, if_neg hne, hresult]
      · rw [List.mem_singleton.mp hother]
        exact .inr ⟨result, hyields, by rw [OrderedMap.find?_insert, if_pos rfl]⟩

omit [LinearOrder ν] in
/-- Files that load one after another leave their scenarios. -/
theorem LoadedFiles.run {done files : List (CheckFile ν)}
    {scenarios after : OrderedMap String (ConformanceScenarioResult ν)}
    (hdone : LoadedFiles parseChecks rootName directoryPrefix done scenarios)
    (hloaded : files.foldlM (loadCheckFile parseChecks rootName directoryPrefix) scenarios =
      .ok after) :
    LoadedFiles parseChecks rootName directoryPrefix (done ++ files) after := by
  induction files generalizing done scenarios with
  | nil =>
      cases hloaded
      simpa using hdone
  | cons file rest ih =>
      rw [List.foldlM_cons, except_bind_eq_ok] at hloaded
      obtain ⟨middle, hstep, hrest⟩ := hloaded
      simpa using ih (hdone.step hstep) hrest

/-- The files are loaded in the order of their paths, whatever the listing is. -/
theorem loadResults_eq (directory : Tree.Directory Bytes ν) :
    loadResults parseChecks rootName (some directory.tree) directoryPrefix =
      (do
        let scenarios ← (sortedCheckFiles directory).foldlM
          (loadCheckFile parseChecks rootName directoryPrefix) OrderedMap.empty
        return { scenarios }) := rfl

/-- Results that load are those of all checks files. -/
theorem loadResults_loaded {directory : Tree.Directory Bytes ν} {results : ConformanceResults ν}
    (hloaded : loadResults parseChecks rootName (some directory.tree) directoryPrefix =
      .ok results) :
    LoadedFiles parseChecks rootName directoryPrefix (sortedCheckFiles directory)
      results.scenarios := by
  rw [loadResults_eq, except_bind_eq_ok] at hloaded
  obtain ⟨scenarios, hfold, hresults⟩ := hloaded
  cases hresults
  have hempty : LoadedFiles parseChecks rootName directoryPrefix []
      (OrderedMap.empty : OrderedMap String (ConformanceScenarioResult ν)) :=
    ⟨(fun _ _ hfound => by cases hfound), (fun _ hfile => by cases hfile)⟩
  exact hempty.run hfold

/-- A result is exactly that of its file. -/
structure ExactResult (parseChecks : Bytes → Except String (List ConformanceCheck))
    (rootName : Option ν) (directoryPrefix : Option String) (tree : Tree Bytes ν)
    (scenario : String) (result : ConformanceScenarioResult ν) : Prop where
  named : result.scenario = scenario
  eligible : Eligible rootName directoryPrefix tree result.source
  encoded : Encodes rootName directoryPrefix result.source scenario
  checks : ∃ content, tree.fileAt? result.source = some content ∧
    parseChecks content = .ok result.checks

/-- The results are in bijection with the eligible files, each file under the one
scenario its directory name encodes. -/
structure CompleteResults (parseChecks : Bytes → Except String (List ConformanceCheck))
    (rootName : Option ν) (directoryPrefix : Option String) (tree : Tree Bytes ν)
    (results : ConformanceResults ν) : Prop where
  exact : ∀ scenario result, results.scenarios.find? scenario = some result →
    ExactResult parseChecks rootName directoryPrefix tree scenario result
  complete : ∀ path, Eligible rootName directoryPrefix tree path →
    ∃! scenario, ∃ result, results.scenarios.find? scenario = some result ∧ result.source = path
  /-- No `checks.json` was passed over because its directory name is not text. -/
  named : ∀ path, (∃ content, tree.fileAt? path = some content) →
    path.getLast? = some (FileName.ofText "checks.json") →
    ∃ name, resultDirectory rootName path = some name

/-- Results that load are complete. -/
theorem loadResults_completeResults {directory : Tree.Directory Bytes ν}
    {results : ConformanceResults ν}
    (hloaded : loadResults parseChecks rootName (some directory.tree) directoryPrefix =
      .ok results) :
    CompleteResults parseChecks rootName directoryPrefix directory.tree results := by
  have hfiles := loadResults_loaded hloaded
  have hexact : ∀ scenario result, results.scenarios.find? scenario = some result →
      ExactResult parseChecks rootName directoryPrefix directory.tree scenario result := by
    intro scenario result hfound
    obtain ⟨rfl, ⟨path, content⟩, hfile, hyields⟩ := hfiles.results scenario result hfound
    obtain ⟨hcontent, hchecks⟩ := mem_sortedCheckFiles.mp hfile
    obtain rfl : result.source = path := hyields.source
    exact {
      named := rfl
      eligible := ⟨⟨content, hcontent⟩, hchecks, hyields.parent⟩
      encoded := hyields.encoded
      checks := ⟨content, hcontent, hyields.checks⟩ }
  refine ⟨hexact, fun path heligible => ?_, fun path hcontent hchecks => ?_⟩
  · obtain ⟨content, hcontent⟩ := heligible.file
    have hfile : (path, content) ∈ sortedCheckFiles directory :=
      mem_sortedCheckFiles.mpr ⟨hcontent, heligible.checks⟩
    rcases hfiles.files _ hfile with ⟨name, hname, hpassed⟩ | ⟨result, hyields, hfound⟩
    · obtain ⟨other, hother, hnamed⟩ := heligible.parent
      rw [hname] at hother
      cases hother
      exact absurd hnamed hpassed
    · refine ⟨result.scenario, ⟨result, hfound, hyields.source⟩, ?_⟩
      -- Two scenarios cannot share a source: its name encodes only one.
      intro scenario hscenario
      obtain ⟨other, hother, hsource⟩ := hscenario
      have hencoded := (hexact scenario other hother).encoded
      rw [hsource] at hencoded
      exact hencoded.unique hyields.encoded
  · obtain ⟨content, hcontent⟩ := hcontent
    have hfile : (path, content) ∈ sortedCheckFiles directory :=
      mem_sortedCheckFiles.mpr ⟨hcontent, hchecks⟩
    rcases hfiles.files _ hfile with ⟨name, hname, -⟩ | ⟨result, hyields, -⟩
    · exact ⟨name, hname⟩
    · obtain ⟨name, hname, -⟩ := hyields.parent
      exact ⟨name, hname⟩

/-- Loading a tree fails or returns exactly its eligible files; it fails where two of
them encode one scenario, and the order of the listings does not matter. -/
theorem loadResults_complete (parseChecks : Bytes → Except String (List ConformanceCheck))
    (rootName : Option ν) (directoryPrefix : Option String) (directory : Tree.Directory Bytes ν) :
    (∀ results, loadResults parseChecks rootName (some directory.tree) directoryPrefix =
        .ok results →
      CompleteResults parseChecks rootName directoryPrefix directory.tree results) ∧
    (∀ first second scenario, first ≠ second →
      Eligible rootName directoryPrefix directory.tree first →
      Eligible rootName directoryPrefix directory.tree second →
      Encodes rootName directoryPrefix first scenario →
      Encodes rootName directoryPrefix second scenario →
      ∃ message, loadResults parseChecks rootName (some directory.tree) directoryPrefix =
        .error message) ∧
    (∀ other : Tree.Directory Bytes ν, directory.tree.Reordered other.tree →
      loadResults parseChecks rootName (some other.tree) directoryPrefix =
        loadResults parseChecks rootName (some directory.tree) directoryPrefix) := by
  refine ⟨fun results hloaded => loadResults_completeResults hloaded, ?_, ?_⟩
  · intro first second scenario hne hfirst hsecond hfirstEncodes hsecondEncodes
    cases hloaded : loadResults parseChecks rootName (some directory.tree) directoryPrefix with
    | error message => exact ⟨message, rfl⟩
    | ok results =>
        have hcomplete := loadResults_completeResults hloaded
        have hfound : ∀ path, Eligible rootName directoryPrefix directory.tree path →
            Encodes rootName directoryPrefix path scenario →
            ∃ result, results.scenarios.find? scenario = some result ∧ result.source = path := by
          intro path heligible hencodes
          obtain ⟨found, ⟨result, hresult, hsource⟩, -⟩ := hcomplete.complete path heligible
          have hencoded := (hcomplete.exact found result hresult).encoded
          rw [hsource] at hencoded
          rw [hencodes.unique hencoded]
          exact ⟨result, hresult, hsource⟩
        obtain ⟨result, hresult, hsource⟩ := hfound first hfirst hfirstEncodes
        obtain ⟨other, hother, hotherSource⟩ := hfound second hsecond hsecondEncodes
        rw [hresult] at hother
        cases hother
        exact absurd (hsource.symm.trans hotherSource) hne
  · intro other hreordered
    rw [loadResults_eq, loadResults_eq, sortedCheckFiles_reordered hreordered]

end Files

end Loading

end CfIntegration.Conformance
