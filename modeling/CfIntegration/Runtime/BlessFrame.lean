import CfIntegration.Runtime.Gate

/-! # What blessing rewrites

A blessed run stages a baseline for every lane it has evidence of. That is every
selected lane, and the direct fixture's whenever a routed lane was selected: its
own baseline is then rewritten as well, unless it already reads the same.
-/

namespace CfIntegration.Runtime

open Conformance

/-- The baselines a request selects. -/
def SelectedBaseline (request : RunRequest) (path : List String) : Prop :=
  ∃ clientVersion ∈ request.clientVersions, ∃ serverEra ∈ request.serverEras,
    (∃ lane ∈ request.lanes,
      path = baselineRelativePath clientVersion serverEra .server lane) ∨
    (request.entry clientVersion serverEra).runsExternalClient = true ∧
      path = baselineRelativePath clientVersion serverEra .client .externalDataPlane

/-- The findings of the results the direct fixture's runner leaves in an entry. -/
def directRunFindings (env : RunEnv) (index : Nat) : Except String (OrderedSet ScoredFinding) := do
  scoredFindings (← loadServerResults env.parseChecks (env.entry index).directTarget.official)

/-- An entry's baseline for the direct fixture already consists of the text that
blessing its findings would write. -/
def DirectBaselineCurrent (env : RunEnv) (root : Option (Tree Bytes))
    (entry : (String × ConformanceServerEra) × Nat) : Prop :=
  ∃ findings source, directRunFindings env entry.2 = .ok findings ∧
    env.codec.toString ⟨findings.elems⟩ = .ok source ∧
    Tree.contentAt? root (baselineRelativePath entry.1.1 entry.1.2 .server .fixtureDirect) =
      some source

theorem baselineRelativePath_server_injective {clientVersion otherVersion : String}
    {serverEra otherEra : ConformanceServerEra} {lane otherLane : SemanticLane}
    (heq : baselineRelativePath clientVersion serverEra .server lane =
      baselineRelativePath otherVersion otherEra .server otherLane) : lane = otherLane := by
  simp only [baselineRelativePath, List.cons.injEq, and_true, String.append_left_inj] at heq
  obtain ⟨_, _, hslug⟩ := heq
  revert hslug
  cases lane <;> cases otherLane <;> decide

/-- The direct fixture's baseline is selected only together with its lane. -/
theorem selectedBaseline_fixtureDirect {request : RunRequest} {clientVersion : String}
    {serverEra : ConformanceServerEra}
    (hselected : SelectedBaseline request
      (baselineRelativePath clientVersion serverEra .server .fixtureDirect)) :
    SemanticLane.fixtureDirect ∈ request.lanes := by
  obtain ⟨_, _, _, _, ⟨lane, hlane, heq⟩ | ⟨_, heq⟩⟩ := hselected
  · rwa [baselineRelativePath_server_injective heq]
  · simp [baselineRelativePath] at heq

/-- Any selection without the direct fixture has it as evidence. -/
theorem fixtureDirect_evidence {lanes : List SemanticLane} (hlanes : lanes ≠ []) :
    SemanticLane.fixtureDirect ∈ conformanceEvidenceLanes lanes := by
  obtain ⟨lane, hlane⟩ := List.exists_mem_of_ne_nil lanes hlanes
  rw [mem_conformanceEvidenceLanes]
  cases lane with
  | fixtureDirect => exact Or.inl hlane
  | builtInDataPlane | externalDataPlane => exact Or.inr ⟨rfl, _, hlane, rfl⟩

section Entry

variable {env : RunEnv} {request : RunRequest} {baselines : BaselineView}
  {clientVersion : String} {serverEra : ConformanceServerEra} {index : Nat}
  {before after : RunProgress} {server client : LaneResults}
  {serverUpdates clientUpdates : List BaselineUpdate}

/-- Every update of a direction is for one of the lanes it has results of. -/
theorem EvaluatedDirection.update_lane {direction : ConformanceDirection} {results : LaneResults}
    {updates : List BaselineUpdate} (hevaluated : EvaluatedDirection env request baselines
      clientVersion serverEra direction results updates)
    {update : BaselineUpdate} (hupdate : update ∈ updates) :
    ∃ lane, (results lane).isSome = true ∧
      update.relativePath = baselineRelativePath clientVersion serverEra direction lane := by
  unfold EvaluatedDirection at hevaluated
  split at hevaluated
  · rw [hevaluated] at hupdate
    contradiction
  · obtain ⟨evaluation, hevaluation, rfl, _⟩ := hevaluated
    obtain ⟨_, _, _, hupdates⟩ := evaluateBaselines_lane hevaluation
    obtain ⟨lane, hlane, output, houtput, hsome⟩ := hupdates update hupdate
    refine ⟨lane, LaneResults.mem_keys.mp hlane, ?_⟩
    obtain ⟨_, _, _, _, _, _, _, rfl⟩ := evaluateLane_ok_iff.mp houtput
    dsimp only at hsome
    split at hsome
    · cases hsome
      rfl
    · contradiction

theorem PassedEntry.server_update_lane (hentry : PassedEntry env request baselines clientVersion
    serverEra index before after server client serverUpdates clientUpdates)
    {update : BaselineUpdate} (hupdate : update ∈ serverUpdates) :
    ∃ lane ∈ conformanceEvidenceLanes request.lanes,
      update.relativePath = baselineRelativePath clientVersion serverEra .server lane := by
  obtain ⟨lane, hlane, hpath⟩ := hentry.serverEvaluated.update_lane hupdate
  refine ⟨lane, ?_, hpath⟩
  by_contra hother
  rw [(loadSelectedConformanceResults_ok_iff.mp hentry.serverResults).2 lane hother] at hlane
  contradiction

theorem PassedEntry.client_update (hentry : PassedEntry env request baselines clientVersion
    serverEra index before after server client serverUpdates clientUpdates)
    {update : BaselineUpdate} (hupdate : update ∈ clientUpdates) :
    (request.entry clientVersion serverEra).runsExternalClient = true ∧
      update.relativePath =
        baselineRelativePath clientVersion serverEra .client .externalDataPlane := by
  obtain ⟨lane, hlane, hpath⟩ := hentry.clientEvaluated.update_lane hupdate
  obtain ⟨_, hnone⟩ | ⟨loaded, htrusted, hloaded⟩ :=
    loadCompletedClientConformanceResults_ok_iff.mp hentry.clientResults
  · rw [hnone] at hlane
    contradiction
  obtain rfl : lane = .externalDataPlane := by
    by_contra hother
    simp [hloaded, hother] at hlane
  refine ⟨?_, hpath⟩
  by_contra hidle
  have hcompletion := htrusted.completion
  rw [hentry.record.noClient (by simpa using hidle)] at hcompletion
  contradiction

/-- Where the direct fixture is evidence, its findings are staged for its baseline. -/
theorem PassedEntry.direct_update (hentry : PassedEntry env request baselines clientVersion
    serverEra index before after server client serverUpdates clientUpdates)
    (hbless : request.bless = true)
    (hevidence : SemanticLane.fixtureDirect ∈ conformanceEvidenceLanes request.lanes) :
    ∃ findings, directRunFindings env index = .ok findings ∧
      ⟨baselineRelativePath clientVersion serverEra .server .fixtureDirect, ⟨findings.elems⟩⟩ ∈
        serverUpdates := by
  obtain ⟨loaded, htrusted, hresults⟩ :=
    (loadSelectedConformanceResults_ok_iff.mp hentry.serverResults).1 _ hevidence
  have hsome : (server .fixtureDirect).isSome = true := by simp [hresults]
  obtain ⟨evaluation, hevaluation, rfl, _⟩ := hentry.serverEvaluated.evaluated hsome
  obtain ⟨direct, _, hlanes, _⟩ := evaluateBaselines_lane hevaluation
  obtain ⟨output, houtput, _, hupdate⟩ :=
    hlanes .fixtureDirect (LaneResults.mem_keys.mpr hsome)
  obtain ⟨laneResults, scored, _, hlaneResults, hscored, _, _, rfl⟩ :=
    evaluateLane_ok_iff.mp houtput
  cases hresults.symm.trans hlaneResults
  refine ⟨scored, ?_, ?_⟩
  · have hofficial := (hentry.record.recorded .server .fixtureDirect (Or.inl rfl)).official
      (by rw [htrusted.completion]; exact Option.some_ne_none _)
    have hloaded : loadServerResults env.parseChecks
        (after.artifacts clientVersion serverEra .server .fixtureDirect).official =
        .ok loaded.results := htrusted.results
    rw [hofficial] at hloaded
    rw [directRunFindings, except_bind_eq_ok]
    exact ⟨_, hloaded, hscored⟩
  · have hgated : gatedFindings .server direct .fixtureDirect scored = scored :=
      if_neg (by simp)
    simpa [hbless, hgated] using hupdate

/-- The updates a passed entry adds: for selected baselines, and for the direct
fixture's own one wherever it is evidence. -/
structure EntryUpdates (env : RunEnv) (request : RunRequest)
    (entry : (String × ConformanceServerEra) × Nat) (updates : List BaselineUpdate) : Prop where
  lanes : request.lanes ≠ []
  selected : ∀ update ∈ updates,
    (∃ lane ∈ conformanceEvidenceLanes request.lanes,
      update.relativePath = baselineRelativePath entry.1.1 entry.1.2 .server lane) ∨
    (request.entry entry.1.1 entry.1.2).runsExternalClient = true ∧
      update.relativePath = baselineRelativePath entry.1.1 entry.1.2 .client .externalDataPlane
  direct : SemanticLane.fixtureDirect ∈ conformanceEvidenceLanes request.lanes →
    ∃ findings, directRunFindings env entry.2 = .ok findings ∧
      ⟨baselineRelativePath entry.1.1 entry.1.2 .server .fixtureDirect, ⟨findings.elems⟩⟩ ∈ updates

theorem PassedEntry.entryUpdates (hentry : PassedEntry env request baselines clientVersion
    serverEra index before after server client serverUpdates clientUpdates)
    (hbless : request.bless = true) :
    EntryUpdates env request ((clientVersion, serverEra), index)
      (serverUpdates ++ clientUpdates) where
  lanes := hentry.record.lanes
  selected update hupdate := (List.mem_append.mp hupdate).imp hentry.server_update_lane
    hentry.client_update
  direct hevidence := by
    obtain ⟨findings, hfindings, hupdate⟩ := hentry.direct_update hbless hevidence
    exact ⟨findings, hfindings, List.mem_append_left _ hupdate⟩

/-- A clean run's updates are those of its entries, in order. -/
theorem PassedEntries.entryUpdates {entries : List ((String × ConformanceServerEra) × Nat)}
    (hrun : PassedEntries env request baselines entries before after)
    (hbless : request.bless = true) :
    ∃ updates, List.Forall₂ (EntryUpdates env request) entries updates ∧
      after.updates = before.updates ++ updates.flatten := by
  induction hrun with
  | nil => exact ⟨[], .nil, by simp⟩
  | cons hentry _ ih =>
      obtain ⟨updates, hupdates, heq⟩ := ih
      refine ⟨_ :: updates, .cons (hentry.entryUpdates hbless) hupdates, ?_⟩
      rw [heq, hentry.updates, List.flatten_cons]
      simp only [List.append_assoc]

end Entry

/-- A run that blessed installed exactly the updates its entries staged. -/
theorem executeConformance_blessed {env : RunEnv} {request : RunRequest}
    {root : Option (Tree Bytes)} {artifacts : RunArtifacts} (hbless : request.bless = true)
    (hok : (executeConformance env request root artifacts).result = .ok ()) :
    ∃ updates disk, List.Forall₂ (EntryUpdates env request)
        (conformanceMatrix request.clientVersions request.serverEras).zipIdx updates ∧
      blessBaselinesTransactionally env.codec env.blessFaults env.rootName root updates.flatten =
        (.ok (), disk) ∧
      (executeConformance env request root artifacts).root = disk.root := by
  obtain ⟨hdocker, hclean⟩ := runMatrix_clean_of_ok hok
  obtain ⟨updates, hupdates, heq⟩ := (matrix_clean hclean).2.entryUpdates hbless
  have heq : (runMatrix env request (baselineFileAt env.behindLink root) artifacts).updates =
      updates.flatten := heq
  obtain ⟨_, hblessed⟩ := executeConformance_of_clean hdocker hclean
  cases houtcome : blessBaselinesTransactionally env.codec env.blessFaults env.rootName root
      updates.flatten with
  | mk result disk =>
      rw [← heq] at houtcome
      obtain ⟨hresult, hroot, _⟩ := hblessed result disk houtcome hbless
      refine ⟨updates, disk, hupdates, ?_, hroot⟩
      rw [hresult, fromNative_eq_ok] at hok
      rw [← heq, houtcome, hok]

theorem mem_conformanceMatrix {clientVersions : List String}
    {serverEras : List ConformanceServerEra} {clientVersion : String}
    {serverEra : ConformanceServerEra} :
    (clientVersion, serverEra) ∈ conformanceMatrix clientVersions serverEras ↔
      clientVersion ∈ clientVersions ∧ serverEra ∈ serverEras := by
  simp [conformanceMatrix]

/-- A successful blessed run leaves every unselected baseline file alone exactly
when the direct fixture was selected too or its baselines were already current. -/
theorem executeConformance_bless_frame {env : RunEnv} {request : RunRequest}
    {root : Option (Tree Bytes)} {artifacts : RunArtifacts} (hbless : request.bless = true)
    (hok : (executeConformance env request root artifacts).result = .ok ()) :
    (∀ path, ¬ SelectedBaseline request path →
      Tree.contentAt? (executeConformance env request root artifacts).root path =
        Tree.contentAt? root path) ↔
    (SemanticLane.fixtureDirect ∈ request.lanes ∨
      ∀ entry ∈ (conformanceMatrix request.clientVersions request.serverEras).zipIdx,
        DirectBaselineCurrent env root entry) := by
  obtain ⟨updates, disk, hupdates, hblessed, hroot⟩ := executeConformance_blessed hbless hok
  have hholds := blessBaselinesTransactionally_holdsDocument hblessed
  rw [hroot]
  constructor
  · intro hframe
    by_contra hneither
    rw [not_or] at hneither
    obtain ⟨hunselected, hstale⟩ := hneither
    refine hstale fun entry hentry => ?_
    obtain ⟨entryUpdates, hmem, hentryUpdates⟩ := forall₂_mem_left hupdates hentry
    obtain ⟨findings, hfindings, hupdate⟩ := hentryUpdates.direct
      (fixtureDirect_evidence hentryUpdates.lanes)
    obtain ⟨source, hsource, hcontent, _⟩ := hholds _ (List.mem_flatten_of_mem hmem hupdate)
    have hkept := hframe (baselineRelativePath entry.1.1 entry.1.2 .server .fixtureDirect)
      fun hselected => hunselected (selectedBaseline_fixtureDirect hselected)
    exact ⟨findings, source, hfindings, hsource, hkept.symm.trans hcontent⟩
  · intro hcondition path hpath
    by_cases hupdated : path ∈ updates.flatten.map BaselineUpdate.relativePath
    · obtain ⟨update, hupdate, rfl⟩ := List.mem_map.mp hupdated
      obtain ⟨entryUpdates, hmem, hupdate⟩ := List.mem_flatten.mp hupdate
      obtain ⟨entry, hentry, hentryUpdates⟩ := forall₂_mem_right hupdates hmem
      obtain ⟨hversion, hera⟩ := mem_conformanceMatrix.mp (List.fst_mem_of_mem_zipIdx hentry)
      -- An update outside the selection is the direct fixture's, staged as evidence.
      obtain ⟨lane, hlane, hlanePath⟩ | hclient := hentryUpdates.selected update hupdate
      · obtain hselected | ⟨rfl, _⟩ := mem_conformanceEvidenceLanes.mp hlane
        · exact absurd ⟨_, hversion, _, hera, Or.inl ⟨lane, hselected, hlanePath⟩⟩ hpath
        · obtain hfixture | hcurrent := hcondition
          · exact absurd ⟨_, hversion, _, hera, Or.inl ⟨_, hfixture, hlanePath⟩⟩ hpath
          obtain ⟨findings, hfindings, hdirect⟩ := hentryUpdates.direct hlane
          obtain ⟨_, source, hcurrentFindings, hsource, hcontent⟩ := hcurrent entry hentry
          cases hcurrentFindings.symm.trans hfindings
          obtain ⟨written, hwritten, hinstalled, _⟩ :=
            hholds _ (List.mem_flatten_of_mem hmem hdirect)
          cases hsource.symm.trans hwritten
          rw [hlanePath, hcontent]
          exact hinstalled
      · exact absurd ⟨_, hversion, _, hera, Or.inr hclient⟩ hpath
    · exact blessBaselinesTransactionally_frame hblessed hupdated

/-- The baselines of one client version and server era. -/
def baselineTree (files : List (String × Tree Bytes)) : Tree Bytes :=
  .directory [(stableMcpSpecVersion, .directory [("dual", .directory files)])]

/-- A checked-in baseline of the direct fixture. -/
def directTree (source : Bytes) : Tree Bytes := baselineTree [("fixture-direct.yml", .file source)]

/-- The baseline lists a failure that was reviewed. -/
def reviewedTree : Tree Bytes := directTree failingSource

def rewrittenTree : Tree Bytes :=
  baselineTree [("fixture-direct.yml", .file emptySource),
    ("built-in-data-plane.yml", .file emptySource)]

theorem bless_routedRun (source : Bytes) :
    ∃ disk, blessBaselinesTransactionally exampleCodec BlessFaults.none (some "baselines")
        (some (directTree source)) (emptyUpdates stableMcpSpecVersion .dual .server
          (conformanceEvidenceLanes [.builtInDataPlane])) = (.ok (), disk) ∧
      disk.root = some rewrittenTree := by
  have hupdates : emptyUpdates stableMcpSpecVersion .dual .server
      (conformanceEvidenceLanes [.builtInDataPlane]) =
      [⟨baselineRelativePath stableMcpSpecVersion .dual .server .fixtureDirect, ⟨[]⟩⟩,
        ⟨baselineRelativePath stableMcpSpecVersion .dual .server .builtInDataPlane, ⟨[]⟩⟩] := rfl
  have hfixture : Tree.write (baselineRelativePath stableMcpSpecVersion .dual .server
      .fixtureDirect) emptySource (some (directTree source)) = some (directTree emptySource) := by
    rfl
  have hrouted : Tree.write (baselineRelativePath stableMcpSpecVersion .dual .server
      .builtInDataPlane) emptySource (some (directTree emptySource)) = some rewrittenTree := by rfl
  have hfresh : baselineRelativePath stableMcpSpecVersion .dual .server .builtInDataPlane ∉
      [baselineRelativePath stableMcpSpecVersion .dual .server .fixtureDirect] := by
    rw [List.mem_singleton]
    exact fun heq => absurd (baselineRelativePath_server_injective heq) (by decide)
  have hstaged : [(⟨baselineRelativePath stableMcpSpecVersion .dual .server .fixtureDirect,
        ⟨[]⟩⟩ : BaselineUpdate),
      ⟨baselineRelativePath stableMcpSpecVersion .dual .server .builtInDataPlane, ⟨[]⟩⟩].foldlM
      (stageUpdate exampleCodec BlessFaults.none) ([], directTree source) =
      .ok ([baselineRelativePath stableMcpSpecVersion .dual .server .builtInDataPlane,
        baselineRelativePath stableMcpSpecVersion .dual .server .fixtureDirect],
        rewrittenTree) := by
    rw [List.foldlM_cons, stageUpdate_empty List.not_mem_nil hfixture]
    change List.foldlM _ _ _ = _
    rw [List.foldlM_cons, stageUpdate_empty hfresh hrouted]
    rfl
  have hroot : stageRoot BlessFaults.none (some (directTree source)) = .ok (directTree source) :=
    stageRoot_ok_iff.mpr ⟨rfl, Or.inr ⟨_, rfl, rfl, rfl, rfl⟩⟩
  rw [hupdates]
  exact blessBaselinesTransactionally_none (List.cons_ne_nil _ _) hroot hstaged

/-- Blessing the built-in lane alone, with checks that all succeed. -/
theorem executeConformance_bless_routed {source : Bytes} {document : ConformanceBaseline}
    (hreviewed : readBaselineWithMetadata exampleCodec (baselineRelativePath
      stableMcpSpecVersion .dual .server .fixtureDirect) source = .ok document) :
    (executeConformance successEnv (successRequest .builtInDataPlane true)
      (some (directTree source)) fun _ _ _ _ => .empty).result = .ok () ∧
    (executeConformance successEnv (successRequest .builtInDataPlane true)
      (some (directTree source)) fun _ _ _ _ => .empty).root = some rewrittenTree := by
  have hread : ∀ lane, ∃ loaded, readBaselineOptional exampleCodec
      (baselineFileAt successEnv.behindLink (some (directTree source)))
      (baselineRelativePath stableMcpSpecVersion .dual .server lane) = .ok loaded ∧
      (true = false → loaded = some ⟨[]⟩) := by
    intro lane
    cases lane with
    | fixtureDirect =>
        refine ⟨some document, ?_, by simp⟩
        exact except_map_eq_ok.mpr ⟨_, hreviewed, rfl⟩
    | builtInDataPlane | externalDataPlane => exact ⟨none, rfl, by simp⟩
  obtain ⟨hclean, hupdates⟩ := runMatrix_success .builtInDataPlane hread fun _ _ _ _ => .empty
  obtain ⟨disk, hblessed, hroot⟩ := bless_routedRun source
  rw [if_pos rfl] at hupdates
  rw [← hupdates] at hblessed
  obtain ⟨hresult, hdisk, _⟩ :=
    (executeConformance_of_clean rfl hclean).2 (.ok ()) disk hblessed rfl
  exact ⟨hresult, hdisk.trans hroot⟩

theorem read_failingSource : readBaselineWithMetadata exampleCodec (baselineRelativePath
    stableMcpSpecVersion .dual .server .fixtureDirect) failingSource = .ok failingDocument := by
  have hsize : failingSource.length ≤ maxBaselineBytes := by decide +kernel
  have hdistinct : failingSource ≠ emptySource := by decide +kernel
  refine readBaselineWithMetadata_ok_iff.mpr ⟨hsize, ?_, List.pairwise_singleton _ _⟩
  simp [exampleCodec, hdistinct]

theorem read_emptySource : readBaselineWithMetadata exampleCodec (baselineRelativePath
    stableMcpSpecVersion .dual .server .fixtureDirect) emptySource = .ok ⟨[]⟩ := by
  have hsize : emptySource.length ≤ maxBaselineBytes := by decide +kernel
  have hparsed : exampleCodec.fromSlice emptySource = .ok ⟨[]⟩ := by simp [exampleCodec]
  exact readBaselineWithMetadata_ok_iff.mpr ⟨hsize, hparsed, List.Pairwise.nil⟩

/-- The reviewed failure of the unselected direct fixture is gone. -/
theorem executeConformance_bless_frame_routed :
    (executeConformance successEnv (successRequest .builtInDataPlane true) (some reviewedTree)
      fun _ _ _ _ => .empty).result = .ok () ∧
    ¬ ∀ path, ¬ SelectedBaseline (successRequest .builtInDataPlane true) path →
      Tree.contentAt? (executeConformance successEnv (successRequest .builtInDataPlane true)
        (some reviewedTree) fun _ _ _ _ => .empty).root path =
      Tree.contentAt? (some reviewedTree) path := by
  obtain ⟨hresult, hroot⟩ := executeConformance_bless_routed read_failingSource
  rw [← reviewedTree] at hresult hroot
  refine ⟨hresult, fun hframe => ?_⟩
  have hkept := hframe (baselineRelativePath stableMcpSpecVersion .dual .server .fixtureDirect)
    fun hselected => absurd (selectedBaseline_fixtureDirect hselected) (by decide)
  have hbefore : Tree.contentAt? (some reviewedTree) (baselineRelativePath stableMcpSpecVersion
      .dual .server .fixtureDirect) = some failingSource := by rfl
  have hafter : Tree.contentAt? (some rewrittenTree) (baselineRelativePath stableMcpSpecVersion
      .dual .server .fixtureDirect) = some emptySource := by rfl
  rw [hroot, hafter, hbefore] at hkept
  exact absurd (Option.some.inj hkept) (by decide +kernel)

/-- The direct fixture's baseline is what its run would write, and so it is left as it is. -/
theorem executeConformance_bless_frame_current :
    (∀ entry ∈ (conformanceMatrix (successRequest .builtInDataPlane true).clientVersions
        (successRequest .builtInDataPlane true).serverEras).zipIdx,
      DirectBaselineCurrent successEnv (some (directTree emptySource)) entry) ∧
    ∀ path, ¬ SelectedBaseline (successRequest .builtInDataPlane true) path →
      Tree.contentAt? (executeConformance successEnv (successRequest .builtInDataPlane true)
        (some (directTree emptySource)) fun _ _ _ _ => .empty).root path =
      Tree.contentAt? (some (directTree emptySource)) path := by
  have hcurrent : ∀ entry ∈ (conformanceMatrix
      (successRequest .builtInDataPlane true).clientVersions
      (successRequest .builtInDataPlane true).serverEras).zipIdx,
        DirectBaselineCurrent successEnv (some (directTree emptySource)) entry := by
    intro entry hentry
    rw [successMatrix, List.mem_singleton] at hentry
    subst hentry
    obtain ⟨results, hvalid, hscored⟩ := successOfficial_valid
    have hloaded : loadServerResults successEnv.parseChecks
        (successEnv.entry 0).directTarget.official = .ok results := hvalid.loaded
    have hwritten : exampleCodec.toString ⟨[]⟩ = .ok emptySource := by simp [exampleCodec]
    refine ⟨OrderedSet.empty, emptySource, ?_, hwritten, by rfl⟩
    rw [directRunFindings, hloaded]
    exact hscored
  exact ⟨hcurrent, (executeConformance_bless_frame rfl
    (executeConformance_bless_routed read_emptySource).1).mpr (.inr hcurrent)⟩

end CfIntegration.Runtime
