import CfIntegration.Foundation.DirectoryWalk
import CfIntegration.Foundation.FileName
import CfIntegration.Conformance.Comparison
import CfIntegration.Mcp.Protocol
import CfIntegration.Runtime.Passing

/-! # Regenerating the comparison reports

The reports are written again from the artifacts that earlier runs left. Every run
directory is found by its path, which names a client version and a server era, and
its report is filed under the same two names. The metadata in its lanes name them
once more.
-/

namespace CfIntegration

theorem OrderedMap.find?_eq_some_iff {κ ν : Type} [LinearOrder κ] {map : OrderedMap κ ν} {key : κ}
    {value : ν} : map.find? key = some value ↔ (key, value) ∈ map.entries :=
  Tree.lookup_eq_some_iff map.sorted.sortedLT.nodup

namespace Runtime

open Conformance FileName

/-! ## The artifact tree -/

/-- What the paths of one lane resolve to; its metadata have not been parsed. -/
structure LaneFiles where
  metadata : Option Bytes
  official : Option OfficialDirectory
  completion : Option Bytes

/-- The lanes of one run directory. -/
abbrev RunFiles := ConformanceDirection → SemanticLane → LaneFiles

def RunFiles.empty : RunFiles := fun _ _ => ⟨none, none, none⟩

/-- A directory entry by its own type, which does not follow a symbolic link. -/
inductive DirectoryEntry (α : Type) where
  | directory (content : α)
  | other

/-- The entries of a directory, if it can be read. -/
abbrev Listing (α : Type) := Option (OrderedMap OsName (DirectoryEntry α))

/-- The subdirectory that a path component leads to. -/
def Listing.directory? {α : Type} (listing : Listing α) (name : String) : Option α :=
  match listing.bind (·.find? (ofText name)) with
  | some (.directory content) => some content
  | _ => none

/-- The directories of the client versions, each with those of its server eras. -/
abbrev ArtifactTree := Listing (Listing RunFiles)

/-- The run directory at the paths of a client version and a server era. -/
def ArtifactTree.run? (tree : ArtifactTree) (paths : ConformancePaths) : Option RunFiles :=
  (Listing.directory? tree paths.clientVersion).bind fun eras =>
    Listing.directory? eras paths.serverEra.label

def ArtifactTree.files (tree : ArtifactTree) (paths : ConformancePaths) : RunFiles :=
  (tree.run? paths).getD RunFiles.empty

/-! ## Discovery -/

/-- The entries by name, each of which has to be a directory. -/
def strictDirectories {α : Type} (listing : Listing α) (dimension : String) :
    Except String (List (OsName × α)) :=
  match listing with
  | none => .error s!"failed to read conformance {dimension} directory"
  | some entries => entries.entries.mapM fun
      | (name, .directory content) => .ok (name, content)
      | (name, .other) => .error s!"unexpected non-directory entry in conformance {
          dimension} directory: {display name}"

def discoverEra (clientVersion : String) (entry : OsName × RunFiles) :
    Except String ConformancePaths := do
  let label ← okOr (toStr entry.1) "server-era directory is not UTF-8"
  let serverEra ← okOr (ConformanceServerEra.fromLabel label)
    s!"unknown conformance server-era directory {label.quote}"
  return { clientVersion, serverEra }

def discoverVersion (entry : OsName × Listing RunFiles) :
    Except String (List ConformancePaths) := do
  let clientVersion ← okOr (toStr entry.1) "client-version directory is not UTF-8"
  bailIf (Mcp.Protocol.isProtocolRevision clientVersion = false)
    s!"invalid conformance client-version directory {
      clientVersion.quote}: must use the MCP YYYY-MM-DD version format"
  let eras ← strictDirectories entry.2 "server-era"
  eras.mapM (discoverEra clientVersion)

def discoverConformanceRuns (tree : ArtifactTree) : Except String (List ConformancePaths) := do
  let versions ← strictDirectories tree "client-version"
  let runs ← versions.mapM discoverVersion
  bailIf (runs.flatten = []) "no partitioned official conformance artifacts found"
  return runs.flatten

/-! ## Reports -/

/-- The code around the reports, and what writing the report of a run comes to. -/
structure ReportEnv where
  parseMetadata : Bytes → Except String ConformanceRunMetadata
  parseChecks : ChecksParser
  compareResultSets : ConformanceResults → ConformanceResults → ConformanceResults →
    List ScenarioComparison
  writeReport : ConformancePaths → Except String Unit

section Regeneration

variable (env : ReportEnv)

def LaneFiles.artifact (files : LaneFiles) (metadata : Option ConformanceRunMetadata) :
    LaneArtifact :=
  { metadata, official := files.official, completion := files.completion }

/-- Load one lane from its files. -/
def loadLaneFiles (paths : ConformancePaths) (files : RunFiles)
    (direction : ConformanceDirection) (target : SemanticLane) :
    AppResult (Option LoadedConformanceArtifact) :=
  let lane := files direction target
  let load := fun metadata => loadConformanceArtifact env.parseChecks paths
    (fun _ _ => lane.artifact metadata) direction target
  match lane.metadata.map env.parseMetadata with
  | none => load none
  | some (.ok metadata) => load (some metadata)
  | some (.error message) => fromNative do
      -- The other parts are looked at before the metadata are parsed.
      bailIf ((lane.artifact none).officialIsDir = false ∨ lane.completion = none)
        (incompleteArtifacts paths direction target)
      bailIf (lane.completion ≠ some conformanceCompletionMarker)
        (invalidMarker paths direction target)
      .error message

def comparisonReport (fixture builtIn external : LoadedConformanceArtifact) : ComparisonReport where
  clientVersion := fixture.metadata.clientVersion
  serverEra := fixture.metadata.serverEra
  suite := fixture.metadata.suite
  fixture := fixture.metadata.fixture
  scenarios := env.compareResultSets fixture.results builtIn.results external.results

/-- Write the report of one run; the result is what was written. -/
def writeComparisonFromArtifacts (files : RunFiles) (paths : ConformancePaths)
    (expectedRun : Option (String × ConformanceServerEra × String)) :
    AppResult ComparisonReport := do
  let fixture ← loadLaneFiles env paths files .server .fixtureDirect
  let builtIn ← loadLaneFiles env paths files .server .builtInDataPlane
  let external ← loadLaneFiles env paths files .server .externalDataPlane
  match fixture, builtIn, external with
  | none, none, none => .error (.native (noArtifacts paths))
  | some fixture, some builtIn, some external =>
      let _ ← fromNative
        (compatibleMetadata fixture.metadata builtIn.metadata external.metadata expectedRun)
      fromNative (env.writeReport paths)
      return comparisonReport env fixture builtIn external
  | fixture, builtIn, external =>
      .error (.native (missingLanes paths [(.fixtureDirect, fixture.isNone),
        (.builtInDataPlane, builtIn.isNone), (.externalDataPlane, external.isNone)]))

/-- The reports written so far, by path, and the runs that have failed. -/
structure Regeneration where
  reports : List (List String × ComparisonReport)
  failures : List String

def regenerateRun (tree : ArtifactTree) (done : Regeneration) (paths : ConformancePaths) :
    Regeneration :=
  match writeComparisonFromArtifacts env (tree.files paths) paths none with
  | .ok report => { done with reports := done.reports ++ [(paths.comparison, report)] }
  | .error failure =>
      { done with failures := done.failures ++ [s!"{paths.identity}: {failure.display}"] }

def regenerateConformanceReport (tree : ArtifactTree) : AppResult Unit × Regeneration :=
  match discoverConformanceRuns tree with
  | .error message => (.error (.native message), ⟨[], []⟩)
  | .ok runs =>
      let done := runs.foldl (regenerateRun env tree) ⟨[], []⟩
      let failures := "\n- ".intercalate done.failures
      if done.failures = [] then (.ok (), done)
      else (.error (.native
        s!"conformance report regeneration completed with failures:\n- {failures}"), done)

end Regeneration

/-! ## What discovery finds -/

theorem Listing.directory?_eq_some_iff {α : Type} {listing : Listing α} {name : String}
    {content : α} :
    listing.directory? name = some content ↔
      ∃ entries, listing = some entries ∧
        (ofText name, DirectoryEntry.directory content) ∈ entries.entries := by
  cases listing with
  | none => simp [Listing.directory?]
  | some entries =>
      simp only [Listing.directory?, Option.bind_some, Option.some.injEq, exists_eq_left',
        ← OrderedMap.find?_eq_some_iff]
      cases entries.find? (ofText name) with
      | none => simp
      | some entry => cases entry <;> simp

/-- A strict listing has the subdirectories, each under its name. -/
theorem mem_strictDirectories {α : Type} {listing : Listing α} {dimension : String}
    {found : List (OsName × α)} (hfound : strictDirectories listing dimension = .ok found)
    {name : String} {content : α} :
    (ofText name, content) ∈ found ↔ listing.directory? name = some content := by
  rw [Listing.directory?_eq_some_iff]
  cases listing with
  | none => cases hfound
  | some entries =>
      have hentries := except_mapM_eq_ok.mp hfound
      simp only [Option.some.injEq, exists_eq_left']
      constructor
      · intro hmem
        obtain ⟨⟨entryName, entry⟩, hentry, hstep⟩ := forall₂_mem_right hentries hmem
        cases entry with
        | directory other =>
            cases hstep
            exact hentry
        | other => cases hstep
      · intro hmem
        obtain ⟨kept, hkept, hstep⟩ := forall₂_mem_left hentries hmem
        cases hstep
        exact hkept

theorem discoverEra_ok_iff {clientVersion : String} {entry : OsName × RunFiles}
    {paths : ConformancePaths} :
    discoverEra clientVersion entry = .ok paths ↔
      clientVersion = paths.clientVersion ∧ entry.1 = ofText paths.serverEra.label := by
  rcases paths with ⟨version, era⟩
  simp only [discoverEra, except_bind_eq_ok, okOr_eq_ok, toStr_eq_some,
    ConformanceServerEra.fromLabel_eq_some_iff, pure, Except.pure, Except.ok.injEq,
    ConformancePaths.mk.injEq]
  constructor
  · intro hfound
    obtain ⟨label, hlabel, found, hera, hversion, rfl⟩ := hfound
    exact ⟨hversion, hera ▸ hlabel⟩
  · intro hpath
    exact ⟨_, hpath.2, era, rfl, hpath.1, rfl⟩

theorem mem_discoverVersion {entry : OsName × Listing RunFiles} {runs : List ConformancePaths}
    (hruns : discoverVersion entry = .ok runs) {paths : ConformancePaths} :
    paths ∈ runs ↔ entry.1 = ofText paths.clientVersion ∧
      ∃ files, entry.2.directory? paths.serverEra.label = some files := by
  simp only [discoverVersion, except_bind_eq_ok, okOr_eq_ok, toStr_eq_some, bailIf_eq_ok] at hruns
  obtain ⟨clientVersion, hname, _, _, eras, heras, hruns⟩ := hruns
  have hdiscovered := except_mapM_eq_ok.mp hruns
  constructor
  · intro hmem
    obtain ⟨⟨name, files⟩, hera, hstep⟩ := forall₂_mem_right hdiscovered hmem
    obtain ⟨hversion, hlabel⟩ := discoverEra_ok_iff.mp hstep
    dsimp only at hlabel
    subst hversion hlabel
    exact ⟨hname, files, (mem_strictDirectories heras).mp hera⟩
  · intro hpath
    obtain ⟨hversion, files, hfiles⟩ := hpath
    have heq : clientVersion = paths.clientVersion := ofText_injective (hname.symm.trans hversion)
    obtain ⟨found, hfound, hstep⟩ :=
      forall₂_mem_left hdiscovered ((mem_strictDirectories heras).mpr hfiles)
    have hsame : discoverEra clientVersion (ofText paths.serverEra.label, files) = .ok paths :=
      discoverEra_ok_iff.mpr ⟨heq, rfl⟩
    rw [hsame] at hstep
    cases hstep
    exact hfound

/-- Discovery finds every run directory of the tree, and nothing else. -/
theorem mem_discoverConformanceRuns {tree : ArtifactTree} {runs : List ConformancePaths}
    (hruns : discoverConformanceRuns tree = .ok runs) {paths : ConformancePaths} :
    paths ∈ runs ↔ ∃ files, tree.run? paths = some files := by
  simp only [discoverConformanceRuns, except_bind_eq_ok, bailIf_eq_ok, pure, Except.pure,
    Except.ok.injEq] at hruns
  obtain ⟨versions, hversions, found, hfound, _, _, rfl⟩ := hruns
  have hdiscovered := except_mapM_eq_ok.mp hfound
  simp only [List.mem_flatten, ArtifactTree.run?, Option.bind_eq_some_iff]
  constructor
  · intro hmem
    obtain ⟨runs, hruns, hpaths⟩ := hmem
    obtain ⟨⟨name, eras⟩, hversion, hstep⟩ := forall₂_mem_right hdiscovered hruns
    obtain ⟨hname, files, hfiles⟩ := (mem_discoverVersion hstep).mp hpaths
    dsimp only at hname
    subst hname
    exact ⟨files, eras, (mem_strictDirectories hversions).mp hversion, hfiles⟩
  · intro hrun
    obtain ⟨files, eras, hversion, hfiles⟩ := hrun
    obtain ⟨runs, hruns, hstep⟩ :=
      forall₂_mem_left hdiscovered ((mem_strictDirectories hversions).mpr hversion)
    exact ⟨runs, hruns, (mem_discoverVersion hstep).mpr ⟨rfl, files, hfiles⟩⟩

/-! ## What a report is written from -/

section Reports

variable (env : ReportEnv)

/-- A lane whose metadata can be parsed and whose artifacts are trusted. -/
structure TrustedLane (target : SemanticLane) (files : LaneFiles)
    (loaded : LoadedConformanceArtifact) : Prop where
  parsed : ∃ source, files.metadata = some source ∧
    env.parseMetadata source = .ok loaded.metadata
  trusted : TrustedArtifact env.parseChecks .server target (files.artifact (some loaded.metadata))
    loaded

/-- Two lanes of one run: their metadata differ in nothing but the lane. -/
structure SameRun (first second : ConformanceRunMetadata) : Prop where
  fixture : second.fixture = first.fixture
  clientVersion : second.clientVersion = first.clientVersion
  serverEra : second.serverEra = first.serverEra
  suite : second.suite = first.suite
  oracle : second.oracle = first.oracle

/-- Three trusted lanes that agree with each other on their run. -/
structure ComparableRun (files : RunFiles) (fixture builtIn external : LoadedConformanceArtifact) :
    Prop where
  fixtureLane : TrustedLane env .fixtureDirect (files .server .fixtureDirect) fixture
  builtInLane : TrustedLane env .builtInDataPlane (files .server .builtInDataPlane) builtIn
  externalLane : TrustedLane env .externalDataPlane (files .server .externalDataPlane) external
  builtInRun : SameRun fixture.metadata builtIn.metadata
  externalRun : SameRun fixture.metadata external.metadata

variable {env}

theorem loadLaneFiles_some_iff {paths : ConformancePaths} {files : RunFiles}
    {target : SemanticLane} {loaded : LoadedConformanceArtifact} :
    loadLaneFiles env paths files .server target = .ok (some loaded) ↔
      TrustedLane env target (files .server target) loaded := by
  unfold loadLaneFiles
  dsimp only
  constructor
  · intro hload
    split at hload
    next hparsed =>
      obtain hmetadata := (loadConformanceArtifact_some_iff.mp hload).metadata
      cases hmetadata
    next metadata hparsed =>
      have htrusted := loadConformanceArtifact_some_iff.mp hload
      obtain ⟨source, hsource, hmetadata⟩ := Option.map_eq_some_iff.mp hparsed
      have hsame : metadata = loaded.metadata := Option.some.inj htrusted.metadata
      subst hsame
      exact ⟨⟨source, hsource, hmetadata⟩, htrusted⟩
    next message hparsed =>
      simp [except_bind_eq_ok] at hload
  · intro hlane
    obtain ⟨source, hsource, hmetadata⟩ := hlane.parsed
    rw [hsource, Option.map_some, hmetadata]
    exact loadConformanceArtifact_some_iff.mpr hlane.trusted

/-- A lane is loaded in one way only. -/
theorem TrustedLane.unique {target : SemanticLane} {files : LaneFiles}
    {first second : LoadedConformanceArtifact} (hfirst : TrustedLane env target files first)
    (hsecond : TrustedLane env target files second) : first = second := by
  have hload : ∀ {loaded}, TrustedLane env target files loaded →
      loadLaneFiles env ⟨"", .dual⟩ (fun _ _ => files) .server target = .ok (some loaded) := by
    intro loaded hlane
    apply loadLaneFiles_some_iff.mpr
    exact hlane
  have hboth := (hload hfirst).symm.trans (hload hsecond)
  cases hboth
  rfl

/-- The run that a report is asked for, if it is asked for one. -/
def ExpectedRun (expectedRun : Option (String × ConformanceServerEra × String))
    (metadata : ConformanceRunMetadata) : Prop :=
  ∀ run ∈ expectedRun, metadata.clientVersion = run.1 ∧ metadata.serverEra = run.2.1 ∧
    metadata.suite = run.2.2

theorem compatibleMetadata_ok_iff {fixture builtIn external result : ConformanceRunMetadata}
    {expectedRun : Option (String × ConformanceServerEra × String)} :
    compatibleMetadata fixture builtIn external expectedRun = .ok result ↔
      SameRun fixture builtIn ∧ SameRun fixture external ∧ ExpectedRun expectedRun fixture ∧
        fixture = result := by
  have hsame : ∀ candidate : ConformanceRunMetadata,
      SameRun fixture candidate ↔ ¬ candidate.fixture ≠ fixture.fixture ∧
        ¬ (candidate.clientVersion ≠ fixture.clientVersion ∨
          candidate.serverEra ≠ fixture.serverEra ∨ candidate.suite ≠ fixture.suite ∨
          candidate.oracle ≠ fixture.oracle) := by
    intro candidate
    push Not
    constructor
    · intro hrun
      exact ⟨hrun.fixture, hrun.clientVersion, hrun.serverEra, hrun.suite, hrun.oracle⟩
    · intro hfields
      obtain ⟨hfixture, hversion, hera, hsuite, horacle⟩ := hfields
      exact ⟨hfixture, hversion, hera, hsuite, horacle⟩
  have hexpected : ∀ run : String × ConformanceServerEra × String,
      ExpectedRun (some run) fixture ↔
        ¬ (fixture.clientVersion ≠ run.1 || fixture.serverEra ≠ run.2.1 ||
          fixture.suite ≠ run.2.2) = true := by
    intro run
    simp [ExpectedRun, and_assoc]
  have hnone : ExpectedRun none fixture ↔ ¬ false = true :=
    iff_of_true (fun _ hrun => by cases hrun) Bool.false_ne_true
  cases expectedRun <;>
    simp only [hsame, hexpected, hnone, compatibleMetadata, Option.any_none, Option.any_some,
      List.forM_eq_forM, List.forM_cons, List.forM_nil, except_bind_eq_ok, bailIf_eq_ok, pure,
      Except.pure, Except.ok.injEq] <;>
    constructor
  case none.mp | some.mp =>
    intro hchecked
    obtain ⟨_, ⟨_, ⟨_, hbuiltInFixture, hbuiltIn⟩, _, ⟨_, hexternalFixture, hexternal⟩, _⟩, _,
      hrun, hresult⟩ := hchecked
    exact ⟨⟨hbuiltInFixture, hbuiltIn⟩, ⟨hexternalFixture, hexternal⟩, hrun, hresult⟩
  case none.mpr | some.mpr =>
    intro hagree
    obtain ⟨⟨hbuiltInFixture, hbuiltIn⟩, ⟨hexternalFixture, hexternal⟩, hrun, hresult⟩ := hagree
    exact ⟨⟨⟩, ⟨⟨⟩, ⟨⟨⟩, hbuiltInFixture, hbuiltIn⟩, ⟨⟩, ⟨⟨⟩, hexternalFixture, hexternal⟩, ⟨⟩⟩,
      ⟨⟩, hrun, hresult⟩

theorem writeComparisonFromArtifacts_ok_iff {files : RunFiles} {paths : ConformancePaths}
    {expectedRun : Option (String × ConformanceServerEra × String)} {report : ComparisonReport} :
    writeComparisonFromArtifacts env files paths expectedRun = .ok report ↔
      ∃ fixture builtIn external, ComparableRun env files fixture builtIn external ∧
        ExpectedRun expectedRun fixture.metadata ∧ env.writeReport paths = .ok () ∧
        report = comparisonReport env fixture builtIn external := by
  simp only [writeComparisonFromArtifacts, except_bind_eq_ok]
  constructor
  · intro hwrite
    obtain ⟨fixture, hfixture, builtIn, hbuiltIn, external, hexternal, hwrite⟩ := hwrite
    split at hwrite
    · cases hwrite
    next fixture builtIn external =>
      simp only [except_bind_eq_ok, fromNative_eq_ok, compatibleMetadata_ok_iff, pure,
        Except.pure, Except.ok.injEq] at hwrite
      obtain ⟨_, ⟨hbuiltInRun, hexternalRun, hexpected, _⟩, _, hwritten, hreport⟩ := hwrite
      refine ⟨fixture, builtIn, external, ?_, hexpected, hwritten, hreport.symm⟩
      exact ⟨loadLaneFiles_some_iff.mp hfixture, loadLaneFiles_some_iff.mp hbuiltIn,
        loadLaneFiles_some_iff.mp hexternal, hbuiltInRun, hexternalRun⟩
    · cases hwrite
  · intro hrun
    obtain ⟨fixture, builtIn, external, hrun, hexpected, hwritten, rfl⟩ := hrun
    refine ⟨_, loadLaneFiles_some_iff.mpr hrun.fixtureLane,
      _, loadLaneFiles_some_iff.mpr hrun.builtInLane,
      _, loadLaneFiles_some_iff.mpr hrun.externalLane, ?_⟩
    simp only [except_bind_eq_ok, fromNative_eq_ok, compatibleMetadata_ok_iff]
    exact ⟨_, ⟨hrun.builtInRun, hrun.externalRun, hexpected, rfl⟩, (), hwritten, rfl⟩

/-- A report that is asked for one run shows that run, wherever it is filed. -/
theorem writeComparisonFromArtifacts_expected {files : RunFiles} {paths : ConformancePaths}
    {clientVersion suite : String} {serverEra : ConformanceServerEra} {report : ComparisonReport}
    (hwritten : writeComparisonFromArtifacts env files paths
      (some (clientVersion, serverEra, suite)) = .ok report) :
    report.clientVersion = clientVersion ∧ report.serverEra = serverEra ∧ report.suite = suite := by
  obtain ⟨fixture, builtIn, external, _, hexpected, _, rfl⟩ :=
    writeComparisonFromArtifacts_ok_iff.mp hwritten
  exact hexpected _ rfl

/-! ## The artifacts of a run -/

/-- Files that hold the artifacts of an entry. -/
structure Holds (env : ReportEnv) (files : RunFiles) (artifacts : EntryArtifacts) : Prop where
  artifact : ∀ direction lane, (files direction lane).artifact (artifacts direction lane).metadata =
    artifacts direction lane
  metadata : ∀ direction lane, (files direction lane).metadata.map env.parseMetadata =
    (artifacts direction lane).metadata.map .ok

theorem Holds.loadLaneFiles {paths : ConformancePaths} {files : RunFiles}
    {artifacts : EntryArtifacts} (hholds : Holds env files artifacts)
    (direction : ConformanceDirection) (target : SemanticLane) :
    loadLaneFiles env paths files direction target =
      loadConformanceArtifact env.parseChecks paths artifacts direction target := by
  have hlane : ∀ other : EntryArtifacts, other direction target = artifacts direction target →
      loadConformanceArtifact env.parseChecks paths other direction target =
        loadConformanceArtifact env.parseChecks paths artifacts direction target := by
    intro other hother
    simp only [loadConformanceArtifact, hother]
  have hartifact := hholds.artifact direction target
  unfold Runtime.loadLaneFiles
  simp only [hholds.metadata direction target]
  cases hmetadata : (artifacts direction target).metadata with
  | none =>
      apply hlane
      rw [hmetadata] at hartifact
      exact hartifact
  | some metadata =>
      apply hlane
      rw [hmetadata] at hartifact
      exact hartifact

/-- A report is regenerated from what a run compares when it ends. -/
theorem Holds.writeComparisonFromArtifacts_ok_iff {files : RunFiles} {artifacts : EntryArtifacts}
    (hholds : Holds env files artifacts) {paths : ConformancePaths}
    {expectedRun : Option (String × ConformanceServerEra × String)} {report : ComparisonReport} :
    writeComparisonFromArtifacts env files paths expectedRun = .ok report ↔
      ∃ metadata fixture builtIn external,
        comparisonArtifacts env.parseChecks paths artifacts expectedRun =
          .ok (metadata, [fixture, builtIn, external]) ∧
        env.writeReport paths = .ok () ∧
        report = comparisonReport env fixture builtIn external := by
  simp only [writeComparisonFromArtifacts, comparisonArtifacts, hholds.loadLaneFiles,
    except_bind_eq_ok]
  constructor
  · intro hwrite
    obtain ⟨fixture, hfixture, builtIn, hbuiltIn, external, hexternal, hwrite⟩ := hwrite
    split at hwrite
    · cases hwrite
    next fixture builtIn external =>
      simp only [except_bind_eq_ok, fromNative_eq_ok, pure, Except.pure, Except.ok.injEq] at hwrite
      obtain ⟨metadata, hmetadata, _, hwritten, hreport⟩ := hwrite
      refine ⟨metadata, fixture, builtIn, external, ?_, hwritten, hreport.symm⟩
      refine ⟨_, hfixture, _, hbuiltIn, _, hexternal, ?_⟩
      simp only [except_bind_eq_ok, fromNative_eq_ok]
      exact ⟨metadata, hmetadata, rfl⟩
    · cases hwrite
  · intro hrun
    obtain ⟨metadata, first, second, third, hcompared, hwritten, rfl⟩ := hrun
    obtain ⟨fixture, hfixture, builtIn, hbuiltIn, external, hexternal, hcompared⟩ := hcompared
    refine ⟨fixture, hfixture, builtIn, hbuiltIn, external, hexternal, ?_⟩
    split at hcompared
    · cases hcompared
    next fixture builtIn external =>
      simp only [except_bind_eq_ok, fromNative_eq_ok, pure, Except.pure, Except.ok.injEq,
        Prod.mk.injEq, List.cons.injEq, and_true] at hcompared ⊢
      obtain ⟨_, hmetadata, _, rfl, rfl, rfl⟩ := hcompared
      exact ⟨_, hmetadata, (), hwritten, rfl⟩
    · cases hcompared

/-! ## A regeneration -/

variable {tree : ArtifactTree}

theorem mem_reports_regenerateRun {done : Regeneration} {paths : ConformancePaths}
    {entry : List String × ComparisonReport} :
    entry ∈ (regenerateRun env tree done paths).reports ↔
      entry ∈ done.reports ∨
        writeComparisonFromArtifacts env (tree.files paths) paths none = .ok entry.2 ∧
          entry.1 = paths.comparison := by
  rcases entry with ⟨path, report⟩
  unfold regenerateRun
  cases writeComparisonFromArtifacts env (tree.files paths) paths none with
  | ok written => simp [eq_comm, and_comm]
  | error failure => simp

theorem mem_failures_regenerateRun {done : Regeneration} {paths : ConformancePaths}
    {text : String} :
    text ∈ (regenerateRun env tree done paths).failures ↔
      text ∈ done.failures ∨ ∃ failure,
        writeComparisonFromArtifacts env (tree.files paths) paths none = .error failure ∧
          text = s!"{paths.identity}: {failure.display}" := by
  unfold regenerateRun
  cases writeComparisonFromArtifacts env (tree.files paths) paths none with
  | ok written => simp
  | error failure => simp

/-- What is written and what fails, run by run. -/
theorem mem_foldl_regenerateRun (runs : List ConformancePaths) (done : Regeneration) :
    (∀ entry, entry ∈ (runs.foldl (regenerateRun env tree) done).reports ↔
      entry ∈ done.reports ∨ ∃ paths ∈ runs,
        writeComparisonFromArtifacts env (tree.files paths) paths none = .ok entry.2 ∧
          entry.1 = paths.comparison) ∧
    ∀ text, text ∈ (runs.foldl (regenerateRun env tree) done).failures ↔
      text ∈ done.failures ∨ ∃ paths ∈ runs, ∃ failure,
        writeComparisonFromArtifacts env (tree.files paths) paths none = .error failure ∧
          text = s!"{paths.identity}: {failure.display}" := by
  induction runs generalizing done with
  | nil => simp
  | cons paths rest ih =>
      obtain ⟨hreports, hfailures⟩ := ih (regenerateRun env tree done paths)
      constructor
      · intro entry
        rw [List.foldl_cons, hreports entry, mem_reports_regenerateRun]
        simp only [List.mem_cons, exists_eq_or_imp, or_assoc]
      · intro text
        rw [List.foldl_cons, hfailures text, mem_failures_regenerateRun]
        simp only [List.mem_cons, exists_eq_or_imp, or_assoc]

theorem regenerateConformanceReport_of_error {message : String}
    (hdiscovery : discoverConformanceRuns tree = .error message) :
    regenerateConformanceReport env tree = (.error (.native message), ⟨[], []⟩) := by
  simp [regenerateConformanceReport, hdiscovery]

theorem regenerateConformanceReport_of_ok {runs : List ConformancePaths}
    (hdiscovery : discoverConformanceRuns tree = .ok runs) :
    (regenerateConformanceReport env tree).2 = runs.foldl (regenerateRun env tree) ⟨[], []⟩ := by
  simp only [regenerateConformanceReport, hdiscovery]
  split <;> rfl

/-- The reports are those of the run directories that can be compared. -/
theorem mem_reports_regenerateConformanceReport {paths : ConformancePaths}
    {report : ComparisonReport} :
    (paths.comparison, report) ∈ (regenerateConformanceReport env tree).2.reports ↔
      (∃ runs, discoverConformanceRuns tree = .ok runs ∧ paths ∈ runs) ∧
        writeComparisonFromArtifacts env (tree.files paths) paths none = .ok report := by
  cases hdiscovery : discoverConformanceRuns tree with
  | error message => simp [regenerateConformanceReport_of_error hdiscovery]
  | ok runs =>
      rw [regenerateConformanceReport_of_ok hdiscovery, (mem_foldl_regenerateRun runs _).1]
      simp only [List.not_mem_nil, false_or, Except.ok.injEq, exists_eq_left']
      constructor
      · intro hreport
        obtain ⟨found, hfound, hwritten, hpath⟩ := hreport
        cases ConformancePaths.comparison_injective hpath
        exact ⟨hfound, hwritten⟩
      · intro hreport
        exact ⟨paths, hreport.1, hreport.2, rfl⟩

end Reports

/-! ## Reports under what they measured -/

section Filing

variable (env : ReportEnv) (tree : ArtifactTree)

/-- A lane's metadata name the client version and the server era of a path. -/
def Names (metadata : ConformanceRunMetadata) (paths : ConformancePaths) : Prop :=
  metadata.clientVersion = paths.clientVersion ∧ metadata.serverEra = paths.serverEra

/-- The metadata of a lane of the run name another client version or server era. -/
def NamesAnother (files : RunFiles) (paths : ConformancePaths) : Prop :=
  ∃ lane source metadata, (files .server lane).metadata = some source ∧
    env.parseMetadata source = .ok metadata ∧ ¬ Names metadata paths

/-- A report computed from three trusted lanes that name the run it is filed under. -/
def MeasuredAs (files : RunFiles) (paths : ConformancePaths) (report : ComparisonReport) : Prop :=
  ∃ fixture builtIn external,
    TrustedLane env .fixtureDirect (files .server .fixtureDirect) fixture ∧
    TrustedLane env .builtInDataPlane (files .server .builtInDataPlane) builtIn ∧
    TrustedLane env .externalDataPlane (files .server .externalDataPlane) external ∧
    (∀ lane ∈ [fixture, builtIn, external], Names lane.metadata paths ∧
      lane.metadata.suite = report.suite ∧
      lane.metadata.oracle = officialConformancePackage ∧
      lane.metadata.fixture = officialFixture) ∧
    report = comparisonReport env fixture builtIn external

/-- The command fails, and lists the run unless it could not discover the runs. -/
def FailureReported (paths : ConformancePaths) : Prop :=
  (∃ failure, (regenerateConformanceReport env tree).1 = .error failure) ∧
    ∀ runs, discoverConformanceRuns tree = .ok runs →
      ∃ error : String,
        s!"{paths.identity}: {error}" ∈ (regenerateConformanceReport env tree).2.failures

structure FiledAsMeasured : Prop where
  measured : ∀ paths report,
    (paths.comparison, report) ∈ (regenerateConformanceReport env tree).2.reports →
      MeasuredAs env (tree.files paths) paths report
  misplaced : ∀ paths files, tree.run? paths = some files → NamesAnother env files paths →
    FailureReported env tree paths ∧
      ∀ report, (paths.comparison, report) ∉ (regenerateConformanceReport env tree).2.reports

/-- No run that can be compared, and whose report can be written, names another client
version or server era than its directory does. -/
def RunsInPlace : Prop :=
  ∀ runs, discoverConformanceRuns tree = .ok runs → ∀ paths ∈ runs,
    env.writeReport paths = .ok () →
      ∀ fixture builtIn external, ComparableRun env (tree.files paths) fixture builtIn external →
        Names fixture.metadata paths

variable {env tree}

theorem failureReported_of_error {runs : List ConformancePaths}
    (hdiscovery : discoverConformanceRuns tree = .ok runs) {paths : ConformancePaths}
    (hpaths : paths ∈ runs) {failure : AppFailure}
    (hwrite : writeComparisonFromArtifacts env (tree.files paths) paths none = .error failure) :
    FailureReported env tree paths := by
  have hlisted : s!"{paths.identity}: {failure.display}" ∈
      (regenerateConformanceReport env tree).2.failures := by
    rw [regenerateConformanceReport_of_ok hdiscovery, (mem_foldl_regenerateRun runs _).2]
    exact Or.inr ⟨paths, hpaths, failure, hwrite, rfl⟩
  constructor
  · rw [regenerateConformanceReport_of_ok hdiscovery] at hlisted
    have hnonempty := List.ne_nil_of_mem hlisted
    simp only [regenerateConformanceReport, hdiscovery, if_neg hnonempty]
    exact ⟨_, rfl⟩
  · intro _ _
    exact ⟨failure.display, hlisted⟩

theorem SameRun.names {first second : ConformanceRunMetadata} (hrun : SameRun first second)
    {paths : ConformancePaths} (hnames : Names first paths) : Names second paths :=
  ⟨hrun.clientVersion.trans hnames.1, hrun.serverEra.trans hnames.2⟩

/-- The report of a comparable run that names its own directory. -/
theorem ComparableRun.measuredAs {files : RunFiles} {paths : ConformancePaths}
    {fixture builtIn external : LoadedConformanceArtifact}
    (hrun : ComparableRun env files fixture builtIn external)
    (hnames : Names fixture.metadata paths) :
    MeasuredAs env files paths (comparisonReport env fixture builtIn external) := by
  refine ⟨fixture, builtIn, external, hrun.fixtureLane, hrun.builtInLane, hrun.externalLane, ?_,
    rfl⟩
  simp only [List.forall_mem_cons, List.not_mem_nil, false_imp_iff, implies_true, and_true]
  refine ⟨⟨hnames, rfl, ?_⟩, ⟨hrun.builtInRun.names hnames, hrun.builtInRun.suite, ?_⟩,
    ⟨hrun.externalRun.names hnames, hrun.externalRun.suite, ?_⟩⟩
  · exact ⟨hrun.fixtureLane.trusted.oracle, hrun.fixtureLane.trusted.fixture⟩
  · exact ⟨hrun.builtInLane.trusted.oracle, hrun.builtInLane.trusted.fixture⟩
  · exact ⟨hrun.externalLane.trusted.oracle, hrun.externalLane.trusted.fixture⟩

/-- Metadata that name another run keep a run that names its own from being compared. -/
theorem ComparableRun.not_namesAnother {files : RunFiles} {paths : ConformancePaths}
    {fixture builtIn external : LoadedConformanceArtifact}
    (hrun : ComparableRun env files fixture builtIn external)
    (hnames : Names fixture.metadata paths) : ¬ NamesAnother env files paths := by
  intro hanother
  obtain ⟨lane, source, metadata, hsource, hparsed, hother⟩ := hanother
  have hlane : ∀ {target loaded}, TrustedLane env target (files .server target) loaded →
      lane = target → loaded.metadata = metadata := by
    intro target loaded htrusted hsame
    subst hsame
    obtain ⟨found, hfound, hmetadata⟩ := htrusted.parsed
    cases hfound.symm.trans hsource
    exact Except.ok.inj (hmetadata.symm.trans hparsed)
  apply hother
  cases lane with
  | fixtureDirect =>
      rw [← hlane hrun.fixtureLane rfl]
      exact hnames
  | builtInDataPlane =>
      rw [← hlane hrun.builtInLane rfl]
      exact hrun.builtInRun.names hnames
  | externalDataPlane =>
      rw [← hlane hrun.externalLane rfl]
      exact hrun.externalRun.names hnames

theorem FiledAsMeasured.runsInPlace (hfiled : FiledAsMeasured env tree) : RunsInPlace env tree := by
  intro runs hdiscovery paths hpaths hwritable fixture builtIn external hrun
  have hwrite : writeComparisonFromArtifacts env (tree.files paths) paths none =
      .ok (comparisonReport env fixture builtIn external) :=
    writeComparisonFromArtifacts_ok_iff.mpr
      ⟨fixture, builtIn, external, hrun, (fun _ hnone => by cases hnone), hwritable, rfl⟩
  obtain ⟨measured, _, _, hmeasured, _, _, hlanes, _⟩ := hfiled.measured paths _
    (mem_reports_regenerateConformanceReport.mpr ⟨⟨runs, hdiscovery, hpaths⟩, hwrite⟩)
  -- The lane that the report is measured from is the one that was compared.
  rw [hrun.fixtureLane.unique hmeasured]
  exact (hlanes measured List.mem_cons_self).1

/-- The reports are filed under what they measured exactly when no comparable run lies
under another run's path. -/
theorem regenerateConformanceReport_filed_iff (env : ReportEnv) (tree : ArtifactTree) :
    FiledAsMeasured env tree ↔ RunsInPlace env tree := by
  constructor
  · exact FiledAsMeasured.runsInPlace
  intro hplace
  constructor
  · intro paths report hreport
    obtain ⟨⟨runs, hdiscovery, hpaths⟩, hwrite⟩ :=
      mem_reports_regenerateConformanceReport.mp hreport
    obtain ⟨fixture, builtIn, external, hrun, _, hwritable, rfl⟩ :=
      writeComparisonFromArtifacts_ok_iff.mp hwrite
    exact hrun.measuredAs (hplace runs hdiscovery paths hpaths hwritable _ _ _ hrun)
  · intro paths files hfiles hanother
    have hsame : tree.files paths = files := by
      rw [ArtifactTree.files, hfiles, Option.getD_some]
    cases hdiscovery : discoverConformanceRuns tree with
    | error message =>
        simp [FailureReported, regenerateConformanceReport_of_error hdiscovery, hdiscovery]
    | ok runs =>
        have hpaths := (mem_discoverConformanceRuns hdiscovery).mpr ⟨files, hfiles⟩
        cases hwrite : writeComparisonFromArtifacts env (tree.files paths) paths none with
        | ok report =>
            obtain ⟨fixture, builtIn, external, hrun, _, hwritable, _⟩ :=
              writeComparisonFromArtifacts_ok_iff.mp hwrite
            have hnames := hplace runs hdiscovery paths hpaths hwritable _ _ _ hrun
            exact absurd (hsame ▸ hanother) (hrun.not_namesAnother hnames)
        | error failure =>
            refine ⟨failureReported_of_error hdiscovery hpaths hwrite, ?_⟩
            intro report hreport
            have hwritten := (mem_reports_regenerateConformanceReport.mp hreport).2
            cases hwrite.symm.trans hwritten

end Filing

/-! ### A run directory that was renamed -/

def renamedRequest : EntryRequest where
  lanes := allConformanceLanes
  clientVersion := stableMcpSpecVersion
  serverEra := .dual
  standalone := false

/-- The metadata that a run for the stable client version leaves in a lane. -/
def stableMetadata (lane : SemanticLane) : ConformanceRunMetadata :=
  runMetadata renamedRequest .server lane (recordedSuite .server)

/-- The metadata as they are written. -/
def metadataSource (metadata : ConformanceRunMetadata) : Bytes :=
  utf8Bytes (Mcp.writeValue (.object [("oracle", .string metadata.oracle),
    ("target", .string metadata.target), ("direction", .string metadata.direction.label),
    ("client_version", .string metadata.clientVersion),
    ("server_era", .string metadata.serverEra.label), ("suite", .string metadata.suite),
    ("fixture", .object [("repository", .string metadata.fixture.repository),
      ("revision", .string metadata.fixture.revision),
      ("server_id", .string metadata.fixture.serverId)])]))

/-- The library restricted to the metadata of the run. -/
def renamedEnv : ReportEnv where
  parseMetadata source :=
    match allConformanceLanes.find? fun lane => metadataSource (stableMetadata lane) = source with
    | some lane => .ok (stableMetadata lane)
    | none => .error "failed to parse conformance run metadata"
  parseChecks := successParser
  compareResultSets _ _ _ := []
  writeReport _ := .ok ()

def renamedFiles : RunFiles := fun _ lane =>
  { metadata := some (metadataSource (stableMetadata lane))
    official := successOfficial
    completion := some conformanceCompletionMarker }

/-- A directory with one subdirectory. -/
def Listing.single {α : Type} (name : String) (content : α) : Listing α :=
  some ⟨[(ofText name, .directory content)], List.pairwise_singleton _ _⟩

/-- The run lies under the newer client version. -/
def renamedTree : ArtifactTree :=
  Listing.single defaultMcpSpecVersion (Listing.single ConformanceServerEra.dual.label renamedFiles)

def renamedPaths : ConformancePaths := ⟨defaultMcpSpecVersion, .dual⟩

theorem renamedTree_run : renamedTree.run? renamedPaths = some renamedFiles := by
  have hsingle : ∀ {α : Type} (name : String) (content : α),
      Listing.directory? (Listing.single name content) name = some content := by
    intro α name content
    rw [Listing.directory?_eq_some_iff]
    exact ⟨_, rfl, List.mem_cons_self⟩
  simp [ArtifactTree.run?, renamedTree, renamedPaths, hsingle]

theorem renamedTree_discovery : discoverConformanceRuns renamedTree = .ok [renamedPaths] := by
  have hrevision : Mcp.Protocol.isProtocolRevision defaultMcpSpecVersion = true := by
    decide +kernel
  have hera : ConformanceServerEra.fromLabel ConformanceServerEra.dual.label = some .dual := rfl
  simp [discoverConformanceRuns, discoverVersion, discoverEra, strictDirectories, renamedTree,
    Listing.single, toStr_ofText, hrevision, hera, okOr, renamedPaths, bind, Except.bind, pure,
    Except.pure]

theorem renamedLane (lane : SemanticLane) : ∃ loaded,
    TrustedLane renamedEnv lane (renamedFiles .server lane) loaded ∧
      loaded.metadata = stableMetadata lane := by
  obtain ⟨results, hvalid, _⟩ := successOfficial_valid
  have hparsed : renamedEnv.parseMetadata (metadataSource (stableMetadata lane)) =
      .ok (stableMetadata lane) := by
    cases lane <;> decide +kernel
  refine ⟨⟨results, stableMetadata lane⟩, ⟨⟨_, rfl, hparsed⟩, ?_⟩, rfl⟩
  exact ValidResults.trusted (show ValidResults successParser .server renamedRequest.clientVersion
    successOfficial results from hvalid) lane

/-- A run for one client version is reported under another one. -/
theorem regenerateConformanceReport_renamed :
    ¬ ∀ (env : ReportEnv) (tree : ArtifactTree), FiledAsMeasured env tree := by
  intro hall
  obtain ⟨fixture, hfixture, hfixtureNames⟩ := renamedLane .fixtureDirect
  obtain ⟨builtIn, hbuiltIn, hbuiltInNames⟩ := renamedLane .builtInDataPlane
  obtain ⟨external, hexternal, hexternalNames⟩ := renamedLane .externalDataPlane
  have hfiles : renamedTree.files renamedPaths = renamedFiles := by
    rw [ArtifactTree.files, renamedTree_run, Option.getD_some]
  have hrun : ComparableRun renamedEnv (renamedTree.files renamedPaths) fixture builtIn
      external := by
    rw [hfiles]
    refine ⟨hfixture, hbuiltIn, hexternal, ?_, ?_⟩
    · rw [hfixtureNames, hbuiltInNames]
      exact ⟨rfl, rfl, rfl, rfl, rfl⟩
    · rw [hfixtureNames, hexternalNames]
      exact ⟨rfl, rfl, rfl, rfl, rfl⟩
  have hnames := (hall renamedEnv renamedTree).runsInPlace _ renamedTree_discovery renamedPaths
    List.mem_cons_self rfl _ _ _ hrun
  rw [hfixtureNames] at hnames
  exact absurd hnames.1 (by decide +kernel)

end Runtime

end CfIntegration
