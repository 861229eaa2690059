import CfIntegration.Fixture.Provision

/-! # Provisioning leaves nothing behind

Every deletion and every listing keeps what holds of the plane under deletions.
A provisioning run therefore only has to account for its two creations: an error
that reports no failed cleanup has seen both records gone, whatever became of
the replies.
-/

namespace CfIntegration.Fixture

/-- An action keeps a property of the plane. -/
abbrev KeepsPlane {ε α : Type} (property : ControlPlane → Prop) (action : Action World ε α) :
    Prop :=
  Action.Keeps (fun world => property world.plane) action

/-- A request that neither creates nor deletes keeps a property of the world. -/
def QuietStable (network : Network) (property : World → Prop) : Prop :=
  ∀ start state, property start → state.plane = start.reached network →
    state.events = start.events → property state

/-- A property that discovery keeps is kept by every quiet request. -/
theorem DiscoveryStable.quiet {property : ControlPlane → Prop} (hstable : DiscoveryStable property)
    (network : Network) : QuietStable network fun world => property world.plane := by
  intro start state hstart hplane _
  rw [hplane]
  exact hstable _ _ hstart

namespace ConformanceFixtureClient

variable (client : ConformanceFixtureClient) (network : Network)

/-! ## What the workflows keep -/

section Workflows

variable {property : World → Prop}

theorem getJson_keeps {α : Type} (hquiet : QuietStable network property) (path : String)
    (list : ControlPlane → α) : Action.Keeps property (client.getJson network path list) := by
  intro start hstart
  refine (client.getJson_ensures network path list start).mono ?_
  rintro _ state ⟨hplane, hevents, -⟩
  exact hquiet start state hstart hplane hevents

/-- The reconciliation keeps what one round of it keeps. -/
theorem reconcileAttempts_keeps
    (honce : Action.Keeps property (client.deleteReservedGatewaysOnce network))
    (attempts quietAttempts : Nat) :
    Action.Keeps property (client.reconcileAttempts network attempts quietAttempts) := by
  induction attempts generalizing quietAttempts with
  | zero => exact Action.keeps_fail _
  | succ attempts ih =>
      refine honce.bind fun deleted => ?_
      split
      · exact ih 0
      · split
        · exact Action.keeps_pure _
        · exact ih _

/-- The cleanup keeps what its deletions and its reconciliation keep. -/
theorem cleanup_keeps
    (hserver : ∀ id, Action.Keeps property (client.deleteOwnedServer network id))
    (hgateway : ∀ id, Action.Keeps property (client.deleteOwnedGateway network id))
    (fixture : Option ProvisionedConformanceFixture) :
    Action.Keeps property (client.cleanup network fixture) := by
  refine (hserver _).attempt.bind fun serverResult => ?_
  cases fixture with
  | none => exact Action.keeps_ofExcept _
  | some fixture =>
      refine (hgateway _).attempt.bind fun gatewayResult => ?_
      rcases serverResult with _ | _ <;> rcases gatewayResult with _ | _
      · exact Action.keeps_fail _
      · exact Action.keeps_fail _
      · exact Action.keeps_fail _
      · exact Action.keeps_pure _

/-- Waiting for the catalogs keeps what quiet requests keep. -/
theorem pollAttempts_keeps (hquiet : QuietStable network property) (gatewayId : String)
    (attempts : Nat) (lastMissing : List String) :
    Action.Keeps property (client.pollAttempts network gatewayId attempts lastMissing) := by
  induction attempts generalizing lastMissing with
  | zero => exact Action.keeps_fail _
  | succ attempts ih =>
      refine (client.getJson_keeps network hquiet _ _).bind fun tools => ?_
      refine (client.getJson_keeps network hquiet _ _).bind fun resources => ?_
      refine (client.getJson_keeps network hquiet _ _).bind fun prompts => ?_
      simp only
      split
      · exact Action.keeps_pure _
      · exact ih _

/-- Finishing keeps a property that the creation of the fixture's server keeps. -/
theorem finishProvision_keeps (hquiet : QuietStable network property)
    (fixture : ProvisionedConformanceFixture)
    (hserver : ∀ start state catalogs, property start → state.events = start.events →
      state.plane = (start.reached network).createServer
        (fixtureServer fixture.serverId catalogs) → property state) :
    Action.Keeps property (client.finishProvision network fixture) := by
  refine Action.Keeps.bind ?_ fun _ => ?_
  · intro start hstart
    refine (client.postSuccess_ensures network _ _ start).mono ?_
    rintro _ state ⟨hplane, hevents, -⟩
    exact hquiet start state hstart (hplane.elim id id) hevents
  refine (client.pollAttempts_keeps network hquiet _ _ _).bind fun catalogs => ?_
  intro start hstart
  refine (client.postSuccess_ensures network _ _ start).mono ?_
  rintro _ state ⟨hplane | hplane, hevents, -⟩
  · exact hquiet start state hstart hplane hevents
  · exact hserver start state catalogs hstart hevents hplane

/-- What the steps of provisioning keep, provisioning keeps. -/
theorem provision_keeps
    (hserver : ∀ id, Action.Keeps property (client.deleteOwnedServer network id))
    (hgateway : ∀ id, Action.Keeps property (client.deleteOwnedGateway network id))
    (honce : Action.Keeps property (client.deleteReservedGatewaysOnce network))
    (hcreate : Action.Keeps property (client.createGateway network))
    (hfinish : ∀ fixture, Action.Keeps property (client.finishProvision network fixture))
    (backendUrl : String) : Action.Keeps property (client.provision network backendUrl) := by
  unfold ConformanceFixtureClient.provision
  split
  · exact Action.keeps_fail _
  refine ((hserver _).mapError _).bind fun _ => (honce.mapError _).bind fun _ =>
    hcreate.attempt.bind fun gatewayResult => ?_
  cases gatewayResult with
  | error primary =>
      refine (client.reconcileAttempts_keeps network honce _ 0).attempt.bind fun reconciled => ?_
      cases reconciled <;> exact Action.keeps_fail _
  | ok gateway =>
      refine (hfinish _).attempt.bind fun finished => ?_
      cases finished with
      | ok => exact Action.keeps_pure _
      | error primary =>
          refine (client.cleanup_keeps network hserver hgateway _).attempt.bind fun cleaned => ?_
          cases cleaned <;> exact Action.keeps_fail _

end Workflows

/-! ## Deletions keep stable properties of the plane -/

section Deletions

variable {property : ControlPlane → Prop}

theorem listing_keeps {α : Type} (hstable : Stable property) (path : String)
    (list : ControlPlane → α) (event : α → FixtureEvent) :
    KeepsPlane property (client.listing network path list event) :=
  (client.getJson_keeps network (hstable.discover.quiet network) path list).bind fun _ =>
    Action.Keeps.bind (fun _ hstart => hstart) fun _ => Action.keeps_pure _

/-- A deletion keeps what is stable under deletions. -/
theorem delete_keeps (hstable : Stable property) (collection : Collection) (id : String) :
    KeepsPlane property (client.delete network collection id) := by
  intro start hstart
  refine (client.delete_ensures network collection id start).mono ?_
  rintro _ state ⟨hplane | hplane, -, -⟩ <;> rw [hplane]
  · exact hstable.discover _ _ hstart
  · exact hstable.delete _ _ (hstable.discover _ _ hstart)

theorem deleteOwnedServer_keeps (hstable : Stable property) (id : String) :
    KeepsPlane property (client.deleteOwnedServer network id) := by
  refine (client.listing_keeps network hstable _ _ _).bind fun servers => ?_
  split
  · exact Action.keeps_fail _
  · split
    · exact Action.keeps_pure _
    · split
      · exact client.delete_keeps network hstable _ _
      · exact Action.keeps_fail _
    · exact Action.keeps_fail _

theorem deleteOwnedGateway_keeps (hstable : Stable property) (id : String) :
    KeepsPlane property (client.deleteOwnedGateway network id) := by
  refine (client.listing_keeps network hstable _ _ _).bind fun gateways => ?_
  split
  · exact Action.keeps_pure _
  · split
    · exact client.delete_keeps network hstable _ _
    · exact Action.keeps_fail _
  · exact Action.keeps_fail _

theorem deleteGateways_keeps (hstable : Stable property) (gateways : List GatewayRecord)
    (failures : List String) :
    KeepsPlane property (client.deleteGateways network gateways failures) := by
  induction gateways generalizing failures with
  | nil => exact Action.keeps_pure _
  | cons gateway rest ih =>
      refine (client.delete_keeps network hstable _ _).attempt.bind fun result => ?_
      cases result with
      | ok => exact ih failures
      | error error => exact ih _

theorem deleteReservedGatewaysOnce_keeps (hstable : Stable property) :
    KeepsPlane property (client.deleteReservedGatewaysOnce network) := by
  refine (client.listing_keeps network hstable _ _ _).bind fun gateways => ?_
  simp only
  split
  · exact Action.keeps_fail _
  · refine (client.deleteGateways_keeps network hstable _ _).bind fun failures => ?_
    split
    · exact Action.keeps_pure _
    · exact Action.keeps_fail _

end Deletions

/-! ## What a successful deletion removed -/

theorem addressed_officialConformanceServerId : Addressed .servers officialConformanceServerId :=
  addressed_of_plain .servers (.of_all rfl)

/-- After the server of a fixture was deleted there is none with its id. -/
theorem deleteOwnedServer_removes (id : String) (start : World) :
    (client.deleteOwnedServer network id).Ensures start fun result state =>
      result = .ok () → NoServer id state.plane := by
  refine (client.listing_ensures network _ _ _ start).bind ?_ fun _ _ _ hresult => by cases hresult
  rintro servers state ⟨-, hservers, -⟩
  obtain ⟨rfl, -⟩ := hservers servers rfl
  split
  · exact fun hresult => by cases hresult
  next hofficial =>
    rw [not_not] at hofficial
    split
    next hmatching =>
      intro _ server hserver hid
      exact List.filter_eq_nil_iff.mp hmatching server.record
        (List.mem_map_of_mem hserver) (decide_eq_true hid)
    next =>
      split
      · refine (client.delete_ensures network .servers id state).mono ?_
        rintro _ after ⟨-, -, hdeleted⟩ hresult
        rw [hdeleted hresult]
        exact NoServer.delete _ (hofficial ▸ addressed_officialConformanceServerId)
      · exact fun hresult => by cases hresult
    next => exact fun hresult => by cases hresult

/-- After an addressed gateway was deleted there is none with its id. -/
theorem deleteOwnedGateway_removes {id : String} (haddressed : Addressed .gateways id)
    (start : World) :
    (client.deleteOwnedGateway network id).Ensures start fun result state =>
      result = .ok () → NoGateway (fun gateway => gateway.id = id) state.plane := by
  refine (client.listing_ensures network _ _ _ start).bind ?_ fun _ _ _ hresult => by cases hresult
  rintro gateways state ⟨-, hgateways, -⟩
  obtain ⟨rfl, -⟩ := hgateways gateways rfl
  split
  next hmatching =>
    intro _ gateway hgateway hid
    exact List.filter_eq_nil_iff.mp hmatching gateway hgateway (decide_eq_true hid)
  next =>
    split
    · refine (client.delete_ensures network .gateways id state).mono ?_
      rintro _ after ⟨-, -, hdeleted⟩ hresult
      rw [hdeleted hresult]
      exact NoGateway.delete _ haddressed
    · exact fun hresult => by cases hresult
  next => exact fun hresult => by cases hresult

/-- A quiet poll has seen the reserved name unused. -/
theorem deleteReservedGatewaysOnce_quiet (start : World) :
    (client.deleteReservedGatewaysOnce network).Ensures start fun result state =>
      result = .ok false →
        NoGateway (fun gateway => gateway.name = officialConformanceGatewayName) state.plane := by
  refine (client.listing_ensures network _ _ _ start).bind ?_ fun _ _ _ hresult => by cases hresult
  rintro gateways state ⟨-, hgateways, -⟩
  obtain ⟨rfl, -⟩ := hgateways gateways rfl
  simp only
  split
  · exact fun hresult => by cases hresult
  · cases hreserved : state.plane.listGateways.filter
        fun gateway => gateway.name = officialConformanceGatewayName with
    | nil =>
        intro _ gateway hgateway hname
        exact List.filter_eq_nil_iff.mp hreserved gateway hgateway (decide_eq_true hname)
    | cons reserved rest =>
        have hdeletions : Action.Ensures (client.deleteGateways network (reserved :: rest) [])
          state fun _ _ => True := trivial
        refine hdeletions.bind ?_ fun _ _ _ hresult => by cases hresult
        intro failures after _
        split <;> exact fun hresult => by cases hresult

/-- A reconciliation that succeeds leaves no gateway of the reserved name. -/
theorem reconcileAttempts_removes (attempts quietAttempts : Nat) (start : World) :
    (client.reconcileAttempts network attempts quietAttempts).Ensures start fun result state =>
      result = .ok () →
        NoGateway (fun gateway => gateway.name = officialConformanceGatewayName) state.plane := by
  induction attempts generalizing quietAttempts start with
  | zero => exact fun hresult => by cases hresult
  | succ attempts ih =>
      refine (client.deleteReservedGatewaysOnce_quiet network start).bind ?_
        fun _ _ _ hresult => by cases hresult
      intro deleted state hquiet
      split
      · exact ih 0 state
      next hdeleted =>
        split
        · exact fun _ => hquiet (congrArg Except.ok (Bool.eq_false_iff.mpr hdeleted))
        · exact ih _ state

/-- A cleanup that succeeds leaves neither the server nor the gateway of the fixture. -/
theorem cleanup_removes {fixture : ProvisionedConformanceFixture}
    (haddressed : Addressed .gateways fixture.gatewayId) (start : World) :
    (client.cleanup network (some fixture)).Ensures start fun result state =>
      result = .ok () → NoServer fixture.serverId state.plane ∧
        NoGateway (fun gateway => gateway.id = fixture.gatewayId) state.plane := by
  refine (client.deleteOwnedServer_removes network fixture.serverId start).attempt ?_
  intro serverResult middle hserver
  have hkeeps := client.deleteOwnedGateway_keeps network (NoServer.stable fixture.serverId)
    fixture.gatewayId
  rcases serverResult with error | ⟨⟨⟩⟩
  · refine (client.deleteOwnedGateway_removes network haddressed middle).attempt ?_
    rintro (_ | _) state - hresult <;> cases hresult
  · refine ((client.deleteOwnedGateway_removes network haddressed middle).and
      (hkeeps middle (hserver rfl))).attempt ?_
    rintro (_ | _) state ⟨hgateway, hnone⟩ hresult
    · cases hresult
    · exact ⟨hnone, hgateway rfl⟩

end ConformanceFixtureClient

/-! ## What the fixture's server associates -/

/-- The ids are those of catalog records of one gateway, and one of these records
is the required one. -/
structure Associates (gatewayId : String) (catalog : List CatalogRecord)
    (required : CatalogRecord → Prop) (ids : List String) : Prop where
  belong : ∀ id ∈ ids, ∃ record ∈ catalog, record.id = id ∧ record.gatewayId = some gatewayId
  required : ∃ record ∈ catalog, required record ∧ record.gatewayId = some gatewayId ∧
    record.id ∈ ids

/-- A larger catalog associates what the smaller one does. -/
theorem Associates.mono {gatewayId : String} {catalog later : List CatalogRecord}
    {required : CatalogRecord → Prop} {ids : List String}
    (hassociates : Associates gatewayId catalog required ids) (hkept : catalog ⊆ later) :
    Associates gatewayId later required ids where
  belong id hid := by
    obtain ⟨record, hrecord, hbelongs⟩ := hassociates.belong id hid
    exact ⟨record, hkept hrecord, hbelongs⟩
  required := by
    obtain ⟨record, hrecord, hrequired⟩ := hassociates.required
    exact ⟨record, hkept hrecord, hrequired⟩

theorem associates_filter {gatewayId : String} {catalog : List CatalogRecord}
    {required : CatalogRecord → Bool}
    (hrequired : (catalog.filter (CatalogRecord.belongsTo gatewayId)).any required = true) :
    Associates gatewayId catalog (fun record => required record = true)
      ((catalog.filter (CatalogRecord.belongsTo gatewayId)).map CatalogRecord.id) := by
  constructor
  · intro id hid
    obtain ⟨record, hrecord, rfl⟩ := List.mem_map.mp hid
    obtain ⟨hlisted, hbelongs⟩ := List.mem_filter.mp hrecord
    exact ⟨record, hlisted, rfl, of_decide_eq_true hbelongs⟩
  · obtain ⟨record, hrecord, hrequired⟩ := List.any_eq_true.mp hrequired
    obtain ⟨hlisted, hbelongs⟩ := List.mem_filter.mp hrecord
    exact ⟨record, hlisted, hrequired, of_decide_eq_true hbelongs, List.mem_map_of_mem hrecord⟩

/-- A virtual server associates only records of one gateway, the required tool,
resource and prompt among them. -/
structure AssociatesFixture (gatewayId : String) (catalogs : Catalogs) (server : VirtualServer) :
    Prop where
  tools : Associates gatewayId catalogs.tools (fun record => record.name = requiredTool)
    server.associatedTools
  resources : Associates gatewayId catalogs.resources (fun record => record.uri = requiredResource)
    server.associatedResources
  prompts : Associates gatewayId catalogs.prompts (fun record => record.name = requiredPrompt)
    server.associatedPrompts

/-- Catalogs without a missing identity associate the fixture's server. -/
theorem associatesFixture_fromRecords {gatewayId serverId : String} {catalogs : Catalogs}
    {tools resources prompts : List CatalogRecord}
    (hcomplete : (CatalogIds.fromRecords gatewayId tools resources prompts).missingIdentities = [])
    (htools : tools ⊆ catalogs.tools) (hresources : resources ⊆ catalogs.resources)
    (hprompts : prompts ⊆ catalogs.prompts) :
    AssociatesFixture gatewayId catalogs
      (fixtureServer serverId (CatalogIds.fromRecords gatewayId tools resources prompts)) := by
  obtain ⟨htool, hresource, hprompt⟩ :
      (CatalogIds.fromRecords gatewayId tools resources prompts).hasRequiredTool = true ∧
      (CatalogIds.fromRecords gatewayId tools resources prompts).hasRequiredResource = true ∧
      (CatalogIds.fromRecords gatewayId tools resources prompts).hasRequiredPrompt = true := by
    simp only [CatalogIds.missingIdentities, List.append_eq_nil_iff] at hcomplete
    grind
  refine ⟨?_, ?_, ?_⟩
  · simpa [fixtureServer, CatalogIds.fromRecords] using
      (associates_filter htool).mono htools
  · simpa [fixtureServer, CatalogIds.fromRecords] using
      (associates_filter hresource).mono hresources
  · simpa [fixtureServer, CatalogIds.fromRecords] using
      (associates_filter hprompt).mono hprompts

/-- The plane has exactly one virtual server of the id. -/
def OnlyServer (id : String) (plane : ControlPlane) (server : VirtualServer) : Prop :=
  ∃ entry ∈ plane.servers.entries, entry.value = server ∧ server.id = id ∧
    ∀ other ∈ plane.servers.entries, other.value.id = id → other = entry

theorem NoServer.createServer {plane : ControlPlane} {server : VirtualServer}
    (hnone : NoServer server.id plane) :
    OnlyServer server.id (plane.createServer server) server := by
  refine ⟨⟨plane.servers.next, server⟩, List.mem_append_right _ (List.mem_singleton_self _), rfl,
    rfl, fun other hother hid => ?_⟩
  rcases List.mem_append.mp hother with hother | hother
  · exact absurd hid (hnone _ (List.mem_map_of_mem hother))
  · exact List.mem_singleton.mp hother

/-- The plane has a gateway that it did not have at the start, and one virtual
server of the fixture's id, which associates only records of that gateway. -/
structure Provisioned (start plane : ControlPlane) (fixture : ProvisionedConformanceFixture) :
    Prop where
  gateway : ∃ gateway ∈ plane.gateways.entries, gateway ∉ start.gateways.entries ∧
    gateway.value.id = fixture.gatewayId ∧ gateway.value.isOwned = true
  serverId : fixture.serverId = officialConformanceServerId
  server : ∃ server, OnlyServer fixture.serverId plane server ∧
    AssociatesFixture fixture.gatewayId plane.catalogs server

/-- The plane has no gateway and no virtual server that it did not have at the start. -/
structure NothingAdded (start plane : ControlPlane) : Prop where
  gateways : plane.gateways.entries ⊆ start.gateways.entries
  servers : plane.servers.entries ⊆ start.servers.entries

/-- What a provisioning call leaves on the plane: nothing new after an error that
reports no failed cleanup, and the fixture it created after a success. -/
structure LeavesNothingBehind (start : ControlPlane)
    (result : Except ProvisionFailure ProvisionedConformanceFixture) (plane : ControlPlane) :
    Prop where
  failed : ∀ failure, result = .error failure → failure.reportsCleanup = false →
    NothingAdded start plane
  succeeded : ∀ fixture, result = .ok fixture → Provisioned start plane fixture

theorem LeavesNothingBehind.failure {start plane : ControlPlane} {failure : ProvisionFailure}
    (hfailure : failure.reportsCleanup = false → NothingAdded start plane) :
    LeavesNothingBehind start (.error failure) plane where
  failed _ hresult := Except.error.inj hresult ▸ hfailure
  succeeded _ hresult := by cases hresult

theorem LeavesNothingBehind.success {start plane : ControlPlane}
    {fixture : ProvisionedConformanceFixture} (hfixture : Provisioned start plane fixture) :
    LeavesNothingBehind start (.ok fixture) plane where
  failed _ hresult := by cases hresult
  succeeded _ hresult := Except.ok.inj hresult ▸ hfixture

/-- An extension without the new records is none. -/
theorem Extends.nothingAdded {start plane : ControlPlane} {gateway : GatewayRecord → Prop}
    {server : VirtualServer → Prop} (hextends : Extends start gateway server plane)
    (hgateways : NoGateway gateway plane)
    (hservers : ∀ created ∈ plane.servers.values, ¬ server created) :
    NothingAdded start plane :=
  ⟨hextends.gateways.subset hgateways, hextends.servers.subset hservers⟩

namespace ConformanceFixtureClient

variable (client : ConformanceFixtureClient) (network : Network)

/-- Catalogs that were waited for associate a server of the fixture. -/
theorem pollAttempts_associates (gatewayId : String) (attempts : Nat) (lastMissing : List String)
    (start : World) :
    (client.pollAttempts network gatewayId attempts lastMissing).Ensures start fun result state =>
      ∀ catalogs, result = .ok catalogs → ∀ serverId,
        AssociatesFixture gatewayId state.plane.catalogs (fixtureServer serverId catalogs) := by
  induction attempts generalizing lastMissing start with
  | zero => exact fun _ hresult => by cases hresult
  | succ attempts ih =>
      refine (client.getJson_ensures network _ _ start).bind ?_
        fun _ _ _ _ hresult => by cases hresult
      rintro tools first ⟨-, -, htools⟩
      refine (client.getJson_ensures network _ _ first).bind ?_
        fun _ _ _ _ hresult => by cases hresult
      rintro resources second ⟨hsecond, -, hresources⟩
      refine (client.getJson_ensures network _ _ second).bind ?_
        fun _ _ _ _ hresult => by cases hresult
      rintro prompts third ⟨hthird, -, hprompts⟩
      simp only
      split
      next hcomplete =>
        intro catalogs hcatalogs serverId
        cases hcatalogs
        have hfirst : first.plane.catalogs.Kept third.plane.catalogs := by
          rw [hthird, World.reached, hsecond]
          exact ((Catalogs.Kept.refl _).add _).add _
        have hkept : second.plane.catalogs.Kept third.plane.catalogs := by
          rw [hthird]
          exact (Catalogs.Kept.refl _).add _
        refine associatesFixture_fromRecords hcomplete ?_ ?_ ?_
        · rw [htools tools rfl]
          exact hfirst.tools
        · rw [hresources resources rfl]
          exact hkept.resources
        · rw [hprompts prompts rfl]
          exact fun _ => id
      · exact ih _ third

/-- A provision that is finished has one server with the fixture's id. -/
theorem finishProvision_creates (fixture : ProvisionedConformanceFixture) (start : World)
    (hnone : NoServer fixture.serverId start.plane) :
    (client.finishProvision network fixture).Ensures start fun result state =>
      result = .ok () → ∃ server, OnlyServer fixture.serverId state.plane server ∧
        AssociatesFixture fixture.gatewayId state.plane.catalogs server := by
  refine (client.postSuccess_ensures network _ _ start).bind ?_
    fun _ _ _ hresult => by cases hresult
  rintro _ refreshed ⟨hrefreshed, -, -⟩
  have hunused : NoServer fixture.serverId refreshed.plane := by
    rcases hrefreshed with hplane | hplane <;> rw [hplane] <;> exact hnone
  have hpolled := client.pollAttempts_keeps network
    ((NoServer.stable fixture.serverId).discover.quiet network) fixture.gatewayId
    client.maxAttempts [] refreshed hunused
  refine ((client.pollAttempts_associates network _ _ _ refreshed).and hpolled).bind ?_
    fun _ _ _ hresult => by cases hresult
  rintro catalogs polled ⟨hassociates, hunused⟩
  refine (client.postSuccess_ensures network _ _ polled).mono ?_
  rintro _ state ⟨-, -, hcreated⟩ hresult
  rw [hcreated hresult]
  have hserver := hassociates catalogs rfl fixture.serverId
  have hreached : NoServer (fixtureServer fixture.serverId catalogs).id (polled.reached network) :=
    hunused
  refine ⟨_, hreached.createServer, ?_⟩
  have hkept := (Catalogs.Kept.refl polled.plane.catalogs).add
    (network polled.requests).discovered
  exact ⟨hserver.tools.mono hkept.tools, hserver.resources.mono hkept.resources,
    hserver.prompts.mono hkept.prompts⟩

theorem createGateway_ensures (start : World) :
    (client.createGateway network).Ensures start fun result state =>
      let id := (network start.requests).newId
      let created := (start.reached network).createGateway id fixtureGateway
      (state.plane = start.reached network ∨ state.plane = created) ∧
        ∀ gateway, result = .ok gateway →
          state.plane = created ∧ gateway = ControlPlane.createdGateway id fixtureGateway := by
  refine (client.postJson_ensures network _ _ start).bind ?_ ?_
  · rintro gateway state ⟨hplane, -, hgateway⟩
    obtain ⟨hcreated, rfl⟩ := hgateway gateway rfl
    simp only [createdGateway_isOwned, if_true]
    refine ⟨hplane, fun created hresult => ?_⟩
    cases hresult
    exact ⟨hcreated, rfl⟩
  · rintro error state ⟨hplane, -, -⟩
    exact ⟨hplane, fun _ hresult => by cases hresult⟩

/-- Reconciliation finds the gateway of a lost reply under the reserved name. -/
theorem reconcile_nothingAdded {base : ControlPlane} (start : World)
    (hstart : Extends base (fun gateway => gateway.isOwned = true) (fun _ => False) start.plane) :
    (client.reconcileReservedGateways network).Ensures start fun result state =>
      result = .ok () → NothingAdded base state.plane := by
  have hkept := client.reconcileAttempts_keeps network
    (client.deleteReservedGatewaysOnce_keeps network (Extends.stable base _ _))
    client.reconciliationAttempts 0 start hstart
  refine ((client.reconcileAttempts_removes network _ _ start).and hkept).mono ?_
  rintro result state ⟨hremoved, hextends⟩ hresult
  refine hextends.nothingAdded (fun gateway hgateway howned => ?_) fun _ _ => id
  refine hremoved hresult gateway hgateway ?_
  simp only [GatewayRecord.isOwned, Bool.and_eq_true, decide_eq_true_eq] at howned
  exact howned.1.1.1

/-- The records of one fixture are the only ones beyond an earlier plane. -/
abbrev AddsFixture (base : ControlPlane) (fixture : ProvisionedConformanceFixture) :
    ControlPlane → Prop :=
  Extends base (fun gateway => gateway.id = fixture.gatewayId)
    (fun server => server.id = fixture.serverId)

/-- A cleanup that succeeds leaves nothing of the fixture behind. -/
theorem cleanup_nothingAdded {base : ControlPlane} {fixture : ProvisionedConformanceFixture}
    (haddressed : Addressed .gateways fixture.gatewayId) (start : World)
    (hstart : AddsFixture base fixture start.plane) :
    (client.cleanup network (some fixture)).Ensures start fun result state =>
      result = .ok () → NothingAdded base state.plane := by
  have hkept := client.cleanup_keeps network
    (client.deleteOwnedServer_keeps network (Extends.stable base _ _))
    (client.deleteOwnedGateway_keeps network (Extends.stable base _ _)) (some fixture) start hstart
  refine ((client.cleanup_removes network haddressed start).and hkept).mono ?_
  rintro result state ⟨hremoved, hextends⟩ hresult
  obtain ⟨hserver, hgateway⟩ := hremoved hresult
  exact hextends.nothingAdded hgateway hserver

theorem finishProvision_gateways (fixture : ProvisionedConformanceFixture) (start : World) :
    (client.finishProvision network fixture).Ensures start fun _ state =>
      state.plane.gateways = start.plane.gateways := by
  have hquiet : QuietStable network fun world => world.plane.gateways = start.plane.gateways := by
    intro before state hbefore hplane _
    rw [hplane]
    exact hbefore
  refine client.finishProvision_keeps network hquiet fixture ?_ start rfl
  intro before state _ hbefore _ hplane
  rw [hplane]
  exact hbefore

/-- Finishing a provision adds nothing but the fixture's server. -/
theorem finishProvision_adds {base : ControlPlane} (fixture : ProvisionedConformanceFixture)
    (start : World) (hstart : AddsFixture base fixture start.plane) :
    (client.finishProvision network fixture).Ensures start fun _ state =>
      AddsFixture base fixture state.plane := by
  have hkept : KeepsPlane (AddsFixture base fixture) (client.finishProvision network fixture) := by
    refine client.finishProvision_keeps network ((Extends.stable _ _ _).discover.quiet network)
      fixture fun before _ _ hbefore _ hplane => ?_
    rw [hplane]
    exact ((Extends.stable _ _ _).discover _ _ hbefore).createServer rfl
  exact hkept start hstart

/-- Where a gateway is addressed under the id that the plane gives it, nothing is
left behind. -/
theorem provision_leavesNothingBehind (haddressed : ∀ n, Addressed .gateways (network n).newId)
    (backendUrl : String) (start : World) :
    (client.provision network backendUrl).Ensures start fun result state =>
      LeavesNothingBehind start.plane result state.plane := by
  let untouched := Extends start.plane (fun _ => False) (fun _ => False)
  have huntouched : ∀ plane, untouched plane → NothingAdded start.plane plane := fun plane hplane =>
    hplane.nothingAdded (fun _ _ => id) (fun _ _ => id)
  have hstable : Stable untouched := Extends.stable _ _ _
  unfold ConformanceFixtureClient.provision
  split
  · exact .failure fun _ => huntouched _ (Extends.refl _ _ _)
  -- Before the gateway is created, nothing but deletions is sent.
  have hserver := (client.deleteOwnedServer_removes network officialConformanceServerId start).and
    (client.deleteOwnedServer_keeps network hstable officialConformanceServerId start
      (Extends.refl _ _ _))
  refine hserver.mapError ?_ ?_
  case refine_2 =>
    rintro error state ⟨-, hplane⟩
    exact .failure fun _ => huntouched _ hplane
  rintro ⟨⟩ first ⟨hunused, hplane⟩
  have hreserved := (client.deleteReservedGatewaysOnce_keeps network hstable first hplane).and
    (client.deleteReservedGatewaysOnce_keeps network (NoServer.stable officialConformanceServerId)
      first (hunused rfl))
  refine hreserved.mapError ?_ ?_
  case refine_2 =>
    rintro error state ⟨hplane, -⟩
    exact .failure fun _ => huntouched _ hplane
  rintro deleted second ⟨hplane, hunused⟩
  refine (client.createGateway_ensures network second).attempt ?_
  rintro gatewayResult third ⟨hthird, hcreated⟩
  cases gatewayResult with
  | error primary =>
      have howned : Extends start.plane (fun gateway => gateway.isOwned = true) (fun _ => False)
          third.plane := by
        have hreached : Extends start.plane (fun gateway => gateway.isOwned = true)
            (fun _ => False) (second.reached network) :=
          (Extends.stable _ _ _).discover _ _ (hplane.mono (fun _ => False.elim) fun _ => id)
        rcases hthird with hthird | hthird <;> rw [hthird]
        · exact hreached
        · exact hreached.createGateway (createdGateway_isOwned _)
      refine (client.reconcile_nothingAdded network third howned).attempt ?_
      rintro (_ | _) state hnothing
      · exact .failure fun hreports => by cases hreports
      · exact .failure fun _ => hnothing rfl
  | ok gateway =>
      obtain ⟨hthird, rfl⟩ := hcreated gateway rfl
      let fixture : ProvisionedConformanceFixture :=
        ⟨(network second.requests).newId, officialConformanceServerId⟩
      have hunused : NoServer fixture.serverId third.plane := by
        rw [hthird]
        exact hunused
      have hadds : AddsFixture start.plane fixture third.plane := by
        have hreached :=
          (Extends.stable _ _ _).discover _ (network second.requests).discovered hplane
        rw [hthird]
        exact (hreached.mono (fun _ => False.elim) fun _ => False.elim).createGateway rfl
      have hgateway : ∃ gateway ∈ third.plane.gateways.entries,
          gateway ∉ start.plane.gateways.entries ∧ gateway.value.id = fixture.gatewayId ∧
            gateway.value.isOwned = true := by
        rw [hthird]
        exact ⟨⟨second.plane.gateways.next, _⟩,
          List.mem_append_right _ (List.mem_singleton_self _),
          Registry.Extends.not_mem_of_le hplane.gateways.next, rfl, createdGateway_isOwned _⟩
      refine (((client.finishProvision_creates network fixture third hunused).and
        (client.finishProvision_gateways network fixture third)).and
        (client.finishProvision_adds network fixture third hadds)).attempt ?_
      rintro (primary | ⟨⟨⟩⟩) finished ⟨⟨hserver, hgateways⟩, hadds⟩
      · have hid : Addressed .gateways fixture.gatewayId := haddressed second.requests
        refine (client.cleanup_nothingAdded network hid finished hadds).attempt ?_
        rintro (_ | _) state hnothing
        · exact .failure fun hreports => by cases hreports
        · exact .failure fun _ => hnothing rfl
      · refine .success ⟨?_, rfl, hserver rfl⟩
        change ∃ gateway ∈ finished.plane.gateways.entries, _
        rw [hgateways]
        exact hgateway

end ConformanceFixtureClient

/-! ## A deletion that goes astray -/

def emptyPlane : ControlPlane := ⟨.empty, .empty, ⟨[], [], []⟩⟩

/-- The plane that holds only the gateway of the fixture. -/
def gatewayOnly (id : String) : ControlPlane := emptyPlane.createGateway id fixtureGateway

/-- The refresh of the new gateway is refused, and then its deletion: the plane finds
no gateway where the request is sent. -/
def astrayDeletion (id : String) : Network := fun n =>
  { discovered := ⟨[], [], []⟩
    newId := id
    fate :=
      if n = 3 then .refused false ⟨503, by decide⟩ none
      else if n = 6 then .refused false ⟨404, by decide⟩ none
      else .answered none }

/-- A deletion at an id that is not addressed leaves the gateway. -/
theorem gatewayOnly_delete {id : String} (haddressed : ¬ Addressed .gateways id) :
    ((gatewayOnly id).delete (itemPath .gateways id)).gateways.entries ≠ [] := by
  have hpath : Collection.gateways.addresses (itemPath .gateways id) id = false :=
    Bool.eq_false_iff.mpr haddressed
  have hleft : ⟨0, ControlPlane.createdGateway id fixtureGateway⟩ ∈
      ((gatewayOnly id).delete (itemPath .gateways id)).gateways.entries := by
    refine List.mem_filter.mpr ⟨List.mem_singleton_self _, ?_⟩
    change (!Collection.gateways.addresses (itemPath .gateways id) id) = true
    rw [hpath]
    rfl
  exact List.ne_nil_of_mem hleft

namespace ConformanceFixtureClient

variable (client : ConformanceFixtureClient)

/-- Where the gateway is listed as owned, its deletion is the request. -/
theorem deleteOwnedGateway_eq_delete {network : Network} {id : String} {start listed : World}
    {records : List GatewayRecord} {gateway : GatewayRecord}
    (hlisted : client.listGateways network start = (.ok records, listed))
    (hmatching : (records.filter fun gateway => gateway.id = id) = [gateway])
    (howned : gateway.isOwned = true) :
    client.deleteOwnedGateway network id start = client.delete network .gateways id listed := by
  simp only [deleteOwnedGateway, bind, Action.bind, hlisted, hmatching, howned, if_true]

theorem gatewayOnly_matching (id : String) :
    ((gatewayOnly id).listGateways.filter fun gateway => gateway.id = id) =
      [ControlPlane.createdGateway id fixtureGateway] := by
  change List.filter _ [ControlPlane.createdGateway id fixtureGateway] = _
  simp [ControlPlane.createdGateway]

/-- The deletion that goes astray is reported as done. -/
theorem deleteOwnedGateway_astray (id : String) (events : List FixtureEvent) :
    ∃ later, client.deleteOwnedGateway (astrayDeletion id) id ⟨gatewayOnly id, 5, events⟩ =
      (.ok (), ⟨(gatewayOnly id).delete (itemPath .gateways id), 7, later⟩) := by
  have hlisted : client.listGateways (astrayDeletion id) ⟨gatewayOnly id, 5, events⟩ =
      (.ok (gatewayOnly id).listGateways,
        ⟨gatewayOnly id, 6, events ++ [.gateways (gatewayOnly id).listGateways]⟩) := rfl
  rw [client.deleteOwnedGateway_eq_delete hlisted (gatewayOnly_matching id)
    (createdGateway_isOwned id)]
  exact ⟨_, rfl⟩

/-- The run fails without reporting that its cleanup failed. -/
theorem provision_astray (id : String) :
    ∃ failure events, client.provision (astrayDeletion id) officialConformanceBackendUrl
        ⟨emptyPlane, 0, []⟩ =
      (.error (.failed failure),
        ⟨(gatewayOnly id).delete (itemPath .gateways id), 7, events⟩) := by
  let started : List FixtureEvent := [.servers [], .gateways []]
  have hserver : client.deleteOwnedServer (astrayDeletion id) officialConformanceServerId
      ⟨emptyPlane, 0, []⟩ = (.ok (), ⟨emptyPlane, 1, [.servers []]⟩) := rfl
  have hreserved : client.deleteReservedGatewaysOnce (astrayDeletion id)
      ⟨emptyPlane, 1, [.servers []]⟩ = (.ok false, ⟨emptyPlane, 2, started⟩) := rfl
  have hcreated : client.createGateway (astrayDeletion id) ⟨emptyPlane, 2, started⟩ =
      (.ok (ControlPlane.createdGateway id fixtureGateway), ⟨gatewayOnly id, 3, started⟩) := rfl
  obtain ⟨primary, hfinished⟩ : ∃ primary, client.finishProvision (astrayDeletion id)
      ⟨id, officialConformanceServerId⟩ ⟨gatewayOnly id, 3, started⟩ =
        (.error primary, ⟨gatewayOnly id, 4, started⟩) := ⟨_, rfl⟩
  have hcleaned : client.deleteOwnedServer (astrayDeletion id) officialConformanceServerId
      ⟨gatewayOnly id, 4, started⟩ = (.ok (), ⟨gatewayOnly id, 5, started ++ [.servers []]⟩) := rfl
  obtain ⟨later, hdeleted⟩ := client.deleteOwnedGateway_astray id (started ++ [.servers []])
  have hcleanup : client.cleanup (astrayDeletion id) (some ⟨id, officialConformanceServerId⟩)
      ⟨gatewayOnly id, 4, started⟩ =
        (.ok (), ⟨(gatewayOnly id).delete (itemPath .gateways id), 7, later⟩) := by
    simp only [cleanup, bind, Action.bind, Action.attempt, hcleaned, hdeleted]
    rfl
  refine ⟨safeError primary client.adminToken, later, ?_⟩
  unfold provision
  rw [if_neg (by decide)]
  simp only [bind, Action.bind, Action.mapError, Action.attempt, hserver, hreserved, hcreated,
    ControlPlane.createdGateway, hfinished, hcleanup]
  rfl

/-- A gateway that is not addressed under its own id is left behind. -/
theorem provision_astray_leaves {id : String} (haddressed : ¬ Addressed .gateways id) :
    ¬ (client.provision (astrayDeletion id) officialConformanceBackendUrl).Ensures
      ⟨emptyPlane, 0, []⟩ fun result state =>
        LeavesNothingBehind emptyPlane result state.plane := by
  intro hnothing
  obtain ⟨failure, events, hrun⟩ := client.provision_astray id
  have hgateways := ((hnothing.of_run hrun).failed _ rfl rfl).gateways
  exact gatewayOnly_delete haddressed (List.subset_nil.mp hgateways)

/-- Nothing is left behind on any plane that gives ids of a kind, whatever becomes
of the requests, exactly if gateways are addressed under the ids of that kind. -/
theorem provision_leavesNothingBehind_iff (ids : String → Prop) :
    (∀ (network : Network) (backendUrl : String) (start : World),
      (∀ n, ids (network n).newId) →
        (client.provision network backendUrl).Ensures start fun result state =>
          LeavesNothingBehind start.plane result state.plane) ↔
      ∀ id, ids id → Addressed .gateways id := by
  constructor
  · intro hnothing id hid
    by_contra haddressed
    exact client.provision_astray_leaves haddressed
      (hnothing (astrayDeletion id) officialConformanceBackendUrl ⟨emptyPlane, 0, []⟩ fun _ => hid)
  · intro haddressed network backendUrl start hids
    exact client.provision_leavesNothingBehind network (fun n => haddressed _ (hids n))
      backendUrl start

end ConformanceFixtureClient

def pinnedClient : ConformanceFixtureClient where
  baseUrl := "http://127.0.0.1:4444"
  adminToken := "conformance-admin-token"
  maxAttempts := 40
  requestTimeout := 30 * 1000000000
  reconciliationAttempts := 5
  maxAttempts_pos := by decide
  requestTimeout_pos := by decide
  quietAttempts_le := by decide
  validToken := by decide

/-- The request for the gateway "g#1" is sent to the place of the gateway "g". -/
theorem provision_leaves_fragmentGateway :
    ¬ (pinnedClient.provision (astrayDeletion "g#1") officialConformanceBackendUrl).Ensures
      ⟨emptyPlane, 0, []⟩ fun result state =>
        LeavesNothingBehind emptyPlane result state.plane :=
  pinnedClient.provision_astray_leaves (by decide)

end CfIntegration.Fixture
