import CfIntegration.Fixture.Residue
import Mathlib.Data.List.Nodup

/-! # Only owned records are deleted

The log of a run tells for every deletion what the latest listing of that
collection showed. A listing is taken right before each group of deletions, and
only deletions of other owned records come in between. A deletion reaches what its
path leads to, so the ids of the owned gateways decide whether a foreign record is
reached.
-/

namespace CfIntegration.Fixture

def FixtureEvent.gateways? : FixtureEvent → Option (List GatewayRecord)
  | .gateways records => some records
  | .servers _ | .delete _ => none

def FixtureEvent.servers? : FixtureEvent → Option (List ServerRecord)
  | .servers records => some records
  | .gateways _ | .delete _ => none

def latestGateways (events : List FixtureEvent) : Option (List GatewayRecord) :=
  (events.filterMap FixtureEvent.gateways?).getLast?

def latestServers (events : List FixtureEvent) : Option (List ServerRecord) :=
  (events.filterMap FixtureEvent.servers?).getLast?

/-- The latest listing of the collection shows an owned record under the id. -/
def ShownOwned (events : List FixtureEvent) : Collection → String → Prop
  | .gateways, id => ∃ records, latestGateways events = some records ∧
      ∃ gateway ∈ records, gateway.id = id ∧ gateway.isOwned = true
  | .servers, id => ∃ records, latestServers events = some records ∧
      ∃ server ∈ records, server.id = id ∧ server.isOwned = true

/-- A deletion is asked for a record that the listing before it shows as owned, and
its path leads to no record that the listing does not show so. -/
structure DeletionOwned (before : List FixtureEvent) (path : List Char) : Prop where
  asked : ∃ collection id, path = itemPath collection id ∧ ShownOwned before collection id
  reached : ∀ collection id, Collection.addresses collection path id = true →
    ShownOwned before collection id

def DeletionsOwned (events : List FixtureEvent) : Prop :=
  ∀ before path after, events = before ++ .delete path :: after → DeletionOwned before path

/-- No listing shows two records under one id. -/
structure UniqueListings (events : List FixtureEvent) : Prop where
  gateways : ∀ records, .gateways records ∈ events → (records.map GatewayRecord.id).Nodup
  servers : ∀ records, .servers records ∈ events → (records.map ServerRecord.id).Nodup

/-- Every record that is not the fixture's own is still there. -/
structure ForeignKept (start plane : ControlPlane) : Prop where
  gateways : ∀ entry ∈ start.gateways.entries, entry.value.isOwned = false →
    entry ∈ plane.gateways.entries
  servers : ∀ entry ∈ start.servers.entries, entry.value.record.isOwned = false →
    entry ∈ plane.servers.entries

/-- The owned gateways of every listing have ids of the kind. -/
def OwnedIds (ids : String → Prop) (events : List FixtureEvent) : Prop :=
  ∀ records, .gateways records ∈ events → ∀ gateway ∈ records, gateway.isOwned = true →
    ids gateway.id

/-- Deletions are asked for owned records only, and no foreign record is deleted when
no listing repeats an id. -/
structure DeletesOwned (start : ControlPlane) (world : World) : Prop where
  owned : DeletionsOwned world.events
  kept : UniqueListings world.events → ForeignKept start world.plane

/-- What a run of the client has done so far, if its listings show owned gateways
under ids of a kind only. -/
def Careful (ids : String → Prop) (start : ControlPlane) (world : World) : Prop :=
  OwnedIds ids world.events → DeletesOwned start world

/-- A deletion of a record that the last listing showed as owned. -/
theorem DeletionOwned.of_shown {before : List FixtureEvent} {collection : Collection} {id : String}
    (hleads : LeadsNowhereElse collection id) (hshown : ShownOwned before collection id) :
    DeletionOwned before (itemPath collection id) where
  asked := ⟨collection, id, rfl, hshown⟩
  reached other otherId hpath := by
    obtain ⟨rfl, rfl⟩ := hleads other otherId hpath
    exact hshown

/-- One more event keeps the deletions owned if it is no deletion or an owned one. -/
theorem DeletionsOwned.append {events : List FixtureEvent} (howned : DeletionsOwned events)
    {event : FixtureEvent} (hevent : ∀ path, event = .delete path → DeletionOwned events path) :
    DeletionsOwned (events ++ [event]) := by
  intro before path after hsplit
  rcases List.eq_nil_or_concat after with rfl | ⟨init, last, rfl⟩
  · obtain ⟨rfl, hlast⟩ := List.append_inj' hsplit rfl
    exact hevent _ (List.cons.inj hlast).1
  · rw [List.concat_eq_append, ← List.cons_append, ← List.append_assoc] at hsplit
    exact howned before path init (List.append_inj' hsplit rfl).1

theorem OwnedIds.of_append {ids : String → Prop} {events later : List FixtureEvent}
    {event : FixtureEvent} (hids : OwnedIds ids later) (hlater : later = events ++ [event]) :
    OwnedIds ids events := by
  subst hlater
  exact fun records hrecords => hids records (List.mem_append_left _ hrecords)

theorem UniqueListings.of_append {events : List FixtureEvent} {event : FixtureEvent}
    (hunique : UniqueListings (events ++ [event])) : UniqueListings events :=
  ⟨fun records hrecords => hunique.gateways records (List.mem_append_left _ hrecords),
    fun records hrecords => hunique.servers records (List.mem_append_left _ hrecords)⟩

theorem UniqueListings.of_append_eq {events later : List FixtureEvent} {event : FixtureEvent}
    (hunique : UniqueListings later) (hlater : later = events ++ [event]) : UniqueListings events :=
  (hlater ▸ hunique).of_append

/-- The latest listing is one of the events. -/
theorem mem_of_latestGateways {events : List FixtureEvent} {records : List GatewayRecord}
    (hlatest : latestGateways events = some records) : .gateways records ∈ events := by
  obtain ⟨event, hevent, hrecords⟩ := List.mem_filterMap.mp (List.mem_of_getLast? hlatest)
  cases event <;> simp_all [FixtureEvent.gateways?]

theorem mem_of_latestServers {events : List FixtureEvent} {records : List ServerRecord}
    (hlatest : latestServers events = some records) : .servers records ∈ events := by
  obtain ⟨event, hevent, hrecords⟩ := List.mem_filterMap.mp (List.mem_of_getLast? hlatest)
  cases event <;> simp_all [FixtureEvent.servers?]

@[simp] theorem latestGateways_append_gateways (events : List FixtureEvent)
    (records : List GatewayRecord) :
    latestGateways (events ++ [.gateways records]) = some records := by
  simp [latestGateways, FixtureEvent.gateways?]

@[simp] theorem latestServers_append_servers (events : List FixtureEvent)
    (records : List ServerRecord) :
    latestServers (events ++ [.servers records]) = some records := by
  simp [latestServers, FixtureEvent.servers?]

@[simp] theorem latestGateways_append_delete (events : List FixtureEvent) (path : List Char) :
    latestGateways (events ++ [.delete path]) = latestGateways events := by
  simp [latestGateways, FixtureEvent.gateways?]

/-- A deletion that leads to owned records alone keeps the foreign ones. -/
theorem ForeignKept.delete {start plane : ControlPlane} (hkept : ForeignKept start plane)
    {collection : Collection} {id : String} (hleads : LeadsNowhereElse collection id)
    (hgateways : collection = .gateways → ∀ gateway ∈ plane.gateways.values, gateway.id = id →
      gateway.isOwned = true)
    (hservers : collection = .servers → ∀ server ∈ plane.servers.values, server.id = id →
      server.record.isOwned = true) :
    ForeignKept start (plane.delete (itemPath collection id)) := by
  constructor
  · intro entry hentry hforeign
    have hpresent := hkept.gateways entry hentry hforeign
    refine List.mem_filter.mpr ⟨hpresent, ?_⟩
    by_contra hpath
    obtain ⟨rfl, hid⟩ := hleads .gateways entry.value.id (by simpa using hpath)
    have howned := hgateways rfl entry.value
      (Registry.mem_values.mpr ⟨entry, hpresent, rfl⟩) hid
    rw [howned] at hforeign
    cases hforeign
  · intro entry hentry hforeign
    have hpresent := hkept.servers entry hentry hforeign
    refine List.mem_filter.mpr ⟨hpresent, ?_⟩
    by_contra hpath
    obtain ⟨rfl, hid⟩ := hleads .servers entry.value.id (by simpa using hpath)
    have howned := hservers rfl entry.value
      (Registry.mem_values.mpr ⟨entry, hpresent, rfl⟩) hid
    rw [howned] at hforeign
    cases hforeign

/-- In a listing without repeated ids, an owned record is the only one under its id. -/
theorem owned_of_nodup {β : Type} {id : β → String} {owned : β → Bool} {records : List β}
    (hunique : (records.map id).Nodup) {target : β} (htarget : target ∈ records)
    (howned : owned target = true) {record : β} (hrecord : record ∈ records)
    (hid : id record = id target) : owned record = true := by
  rw [List.inj_on_of_nodup_map hunique hrecord htarget hid]
  exact howned

section Steps

variable {ids : String → Prop} {start : ControlPlane} {network : Network} {world state : World}

/-- Nothing has been deleted at the start. -/
theorem Careful.initial (ids : String → Prop) (plane : ControlPlane) (requests : Nat) :
    Careful ids plane ⟨plane, requests, []⟩ := fun _ =>
  { owned := fun before path after hsplit => by simp at hsplit
    kept := fun _ => ⟨fun _ hentry _ => hentry, fun _ hentry _ => hentry⟩ }

/-- A request that deletes nothing keeps the client careful. -/
theorem Careful.quiet (ids : String → Prop) (start : ControlPlane) (network : Network) :
    QuietStable network (Careful ids start) := by
  intro before state hbefore hplane hevents hids
  have hdeletes := hbefore (hevents ▸ hids)
  refine ⟨hevents ▸ hdeletes.owned, fun hunique => ?_⟩
  have hkept := hdeletes.kept (hevents ▸ hunique)
  rw [hplane]
  exact ⟨hkept.gateways, hkept.servers⟩

/-- A listing keeps the client careful. -/
theorem Careful.listed {event : FixtureEvent} (hworld : Careful ids start world)
    (hevent : ∀ path, event ≠ .delete path) (hplane : state.plane = world.reached network)
    (hevents : state.events = world.events ++ [event]) : Careful ids start state := by
  intro hids
  have hdeletes := hworld (hids.of_append hevents)
  refine ⟨hevents ▸ hdeletes.owned.append fun _ hdelete => absurd hdelete (hevent _),
    fun hunique => ?_⟩
  have hkept := hdeletes.kept (hunique.of_append_eq hevents)
  rw [hplane]
  exact ⟨hkept.gateways, hkept.servers⟩

end Steps

/-- The latest listing of the gateways covers those the plane still has. -/
structure GatewaysListed (ids : String → Prop) (start : ControlPlane)
    (records : List GatewayRecord) (world : World) : Prop where
  careful : Careful ids start world
  latest : latestGateways world.events = some records
  current : ∀ gateway ∈ world.plane.gateways.values, gateway ∈ records

namespace ConformanceFixtureClient

section Runs

variable (client : ConformanceFixtureClient) (network : Network) {ids : String → Prop}

/-- After a listing the client knows which gateways are owned. -/
theorem listGateways_listed {start : ControlPlane} {world : World}
    (hworld : Careful ids start world) :
    (client.listGateways network).Ensures world fun result state =>
      Careful ids start state ∧
        ∀ records, result = .ok records → GatewaysListed ids start records state := by
  refine (client.listing_ensures network _ _ _ world).mono ?_
  rintro (error | records) state ⟨hplane, hlisted, hfailed⟩
  · exact ⟨Careful.quiet ids start network _ _ hworld hplane (hfailed error rfl),
      fun _ hresult => by cases hresult⟩
  · obtain ⟨rfl, hevents⟩ := hlisted records rfl
    have hcareful := hworld.listed (fun _ => by simp) hplane hevents
    refine ⟨hcareful, fun _ hresult => ?_⟩
    cases hresult
    exact ⟨hcareful, by rw [hevents, latestGateways_append_gateways], fun _ => id⟩

/-- The deletion of a gateway that was listed as owned. -/
theorem delete_gateway_listed (hleads : ∀ id, ids id → LeadsNowhereElse .gateways id)
    {start : ControlPlane} {records : List GatewayRecord} {world : World}
    (hworld : GatewaysListed ids start records world) {gateway : GatewayRecord}
    (hgateway : gateway ∈ records) (howned : gateway.isOwned = true) :
    (client.delete network .gateways gateway.id).Ensures world fun _ state =>
      GatewaysListed ids start records state := by
  refine (client.delete_ensures network .gateways gateway.id world).mono ?_
  rintro _ state ⟨hplane, hevents, -⟩
  have hlatest : latestGateways state.events = some records := by
    rw [hevents, latestGateways_append_delete, hworld.latest]
  refine ⟨fun hids => ?_, hlatest, ?_⟩
  · have hdeletes := hworld.careful (hids.of_append hevents)
    have hnowhere := hleads _ (hids records (mem_of_latestGateways hlatest) gateway hgateway howned)
    constructor
    · rw [hevents]
      refine hdeletes.owned.append ?_
      rintro _ ⟨⟩
      exact .of_shown hnowhere ⟨records, hworld.latest, gateway, hgateway, rfl, howned⟩
    · intro hunique
      have hnodup := hunique.gateways records (mem_of_latestGateways hlatest)
      have hkept := hdeletes.kept (hunique.of_append_eq hevents)
      have hreached : ForeignKept start (world.reached network) := ⟨hkept.gateways, hkept.servers⟩
      rcases hplane with hplane | hplane <;> rw [hplane]
      · exact hreached
      · refine hreached.delete hnowhere (fun _ other hother => ?_) fun hservers => by cases hservers
        exact owned_of_nodup hnodup hgateway howned (hworld.current other hother)
  · rcases hplane with hplane | hplane <;> rw [hplane]
    · exact hworld.current
    · intro remaining hremaining
      rw [ControlPlane.delete, Registry.values_remove] at hremaining
      exact hworld.current remaining (List.mem_of_mem_filter hremaining)

/-- The deletions of gateways that were listed as owned, one after another. -/
theorem deleteGateways_listed (hleads : ∀ id, ids id → LeadsNowhereElse .gateways id)
    {start : ControlPlane} {records : List GatewayRecord} (gateways : List GatewayRecord)
    (failures : List String)
    (howned : ∀ gateway ∈ gateways, gateway ∈ records ∧ gateway.isOwned = true) :
    Action.Keeps (GatewaysListed ids start records)
      (client.deleteGateways network gateways failures) := by
  induction gateways generalizing failures with
  | nil => exact Action.keeps_pure _
  | cons gateway rest ih =>
      obtain ⟨hgateway, hrest⟩ := List.forall_mem_cons.mp howned
      intro world hworld
      refine (client.delete_gateway_listed network hleads hworld hgateway.1 hgateway.2).attempt ?_
      intro result state hstate
      cases result with
      | ok => exact ih failures hrest state hstate
      | error error => exact ih _ hrest state hstate

/-- One reconciliation deletes only gateways that it has listed as owned. -/
theorem deleteReservedGatewaysOnce_careful
    (hleads : ∀ id, ids id → LeadsNowhereElse .gateways id) (start : ControlPlane) :
    Action.Keeps (Careful ids start) (client.deleteReservedGatewaysOnce network) := by
  intro world hworld
  refine (client.listGateways_listed network hworld).bind ?_ fun _ _ hstate => hstate.1
  rintro records state ⟨hcareful, hlisted⟩
  simp only
  split
  · exact hcareful
  next hcollision =>
    have howned : ∀ gateway ∈ records.filter
        fun gateway => gateway.name = officialConformanceGatewayName,
        gateway ∈ records ∧ gateway.isOwned = true := by
      intro gateway hgateway
      refine ⟨List.mem_of_mem_filter hgateway, ?_⟩
      by_contra hforeign
      exact hcollision (List.any_eq_true.mpr ⟨gateway, hgateway, by simpa using hforeign⟩)
    refine (client.deleteGateways_listed network hleads _ [] howned state
      (hlisted records rfl)).bind ?_ fun _ _ hstate => hstate.careful
    intro failures after hafter
    split <;> exact hafter.careful

/-- The gateway of a fixture is deleted only after it was listed as owned. -/
theorem deleteOwnedGateway_careful (hleads : ∀ id, ids id → LeadsNowhereElse .gateways id)
    (start : ControlPlane) (id : String) :
    Action.Keeps (Careful ids start) (client.deleteOwnedGateway network id) := by
  intro world hworld
  refine (client.listGateways_listed network hworld).bind ?_ fun _ _ hstate => hstate.1
  rintro records state ⟨hcareful, hlisted⟩
  split
  · exact hcareful
  next gateway hmatching =>
    obtain ⟨hgateway, hid⟩ := List.mem_filter.mp (hmatching ▸ List.mem_singleton_self gateway)
    split
    next howned =>
      obtain rfl := of_decide_eq_true hid
      exact (client.delete_gateway_listed network hleads (hlisted records rfl) hgateway howned).mono
        fun _ _ hafter => hafter.careful
    · exact hcareful
  · exact hcareful

/-- The fixture's server is the only one that is ever deleted, and its id is plain. -/
theorem deleteOwnedServer_careful (start : ControlPlane) (id : String) :
    Action.Keeps (Careful ids start) (client.deleteOwnedServer network id) := by
  intro world hworld
  refine (client.listing_ensures network _ _ _ world).bind ?_ ?_
  -- The listing failed: nothing changed but the log.
  case refine_2 =>
    rintro error state ⟨hplane, -, hfailed⟩
    exact Careful.quiet ids start network _ _ hworld hplane (hfailed error rfl)
  rintro records state ⟨hplane, hlisted, -⟩
  obtain ⟨rfl, hevents⟩ := hlisted records rfl
  have hcareful := hworld.listed (fun _ => by simp) hplane hevents
  split
  · exact hcareful
  next hofficial =>
    obtain rfl : id = officialConformanceServerId := not_not.mp hofficial
    split
    · exact hcareful
    next server hmatching =>
      split
      next howned =>
        obtain ⟨hserver, hid⟩ := List.mem_filter.mp (hmatching ▸ List.mem_singleton_self server)
        have hserverId : server.id = officialConformanceServerId := of_decide_eq_true hid
        have hnowhere := addressed_officialConformanceServerId.leadsNowhereElse
        refine (client.delete_ensures network .servers officialConformanceServerId state).mono ?_
        rintro _ after ⟨hafter, hlog, -⟩ hids
        have hdeletes := hcareful (hids.of_append hlog)
        have hlatest : latestServers state.events = some state.plane.listServers := by
          rw [hevents, latestServers_append_servers]
        constructor
        -- The deletion refers to the listing that was taken right before it.
        · rw [hlog]
          refine hdeletes.owned.append ?_
          rintro _ ⟨⟩
          exact .of_shown hnowhere ⟨_, hlatest, server, hserver, hserverId, howned⟩
        · intro hunique
          have hnodup := hunique.of_append_eq hlog |>.servers _ (mem_of_latestServers hlatest)
          have hkept := hdeletes.kept (hunique.of_append_eq hlog)
          have hreached : ForeignKept start (state.reached network) :=
            ⟨hkept.gateways, hkept.servers⟩
          -- The plane applied the deletion or lost it.
          rcases hafter with hafter | hafter <;> rw [hafter]
          · exact hreached
          · refine hreached.delete hnowhere (fun hgateways => by cases hgateways) ?_
            intro _ other hother hotherId
            exact owned_of_nodup hnodup hserver howned (List.mem_map_of_mem hother)
              (hotherId.trans hserverId.symm)
      · exact hcareful
    · exact hcareful

/-- Creating a gateway deletes nothing. -/
theorem createGateway_careful (start : ControlPlane) :
    Action.Keeps (Careful ids start) (client.createGateway network) := by
  refine Action.Keeps.bind ?_ fun gateway => ?_
  · intro world hworld
    refine (client.postJson_ensures network _ _ world).mono ?_
    rintro _ state ⟨hplane, hevents, -⟩ hids
    have hdeletes := hworld (hevents ▸ hids)
    refine ⟨hevents ▸ hdeletes.owned, fun hunique => ?_⟩
    have hkept := hdeletes.kept (hevents ▸ hunique)
    rcases hplane with hplane | hplane <;> rw [hplane]
    · exact ⟨hkept.gateways, hkept.servers⟩
    · exact ⟨fun entry hentry hforeign =>
        List.mem_append_left _ (hkept.gateways entry hentry hforeign), hkept.servers⟩
  · split
    · exact Action.keeps_pure _
    · exact Action.keeps_fail _

/-- Finishing a provision deletes nothing. -/
theorem finishProvision_careful (start : ControlPlane) (fixture : ProvisionedConformanceFixture) :
    Action.Keeps (Careful ids start) (client.finishProvision network fixture) := by
  refine client.finishProvision_keeps network (Careful.quiet ids start network) fixture ?_
  intro before state catalogs hbefore hevents hplane hids
  have hdeletes := hbefore (hevents ▸ hids)
  refine ⟨hevents ▸ hdeletes.owned, fun hunique => ?_⟩
  have hkept := hdeletes.kept (hevents ▸ hunique)
  rw [hplane]
  exact ⟨hkept.gateways, fun entry hentry hforeign =>
    List.mem_append_left _ (hkept.servers entry hentry hforeign)⟩

end Runs

end ConformanceFixtureClient

/-- The client's two entry points. -/
inductive FixtureCall where
  | provision (backendUrl : String)
  | cleanup (fixture : Option ProvisionedConformanceFixture)
  deriving DecidableEq, Repr

namespace ConformanceFixtureClient

/-- Make the calls one after another, whatever each of them returns. -/
def runCalls (client : ConformanceFixtureClient) (network : Network) :
    List FixtureCall → FixtureAction Unit
  | [] => pure ()
  | .provision backendUrl :: rest => do
      let _ ← Action.attempt (client.provision network backendUrl)
      runCalls client network rest
  | .cleanup fixture :: rest => do
      let _ ← Action.attempt (client.cleanup network fixture)
      runCalls client network rest

variable (client : ConformanceFixtureClient)

/-- Where the paths of the owned gateways lead to no other record, every run is careful. -/
theorem runCalls_careful {ids : String → Prop}
    (hleads : ∀ id, ids id → LeadsNowhereElse .gateways id) (network : Network)
    (start : ControlPlane) (calls : List FixtureCall) :
    Action.Keeps (Careful ids start) (client.runCalls network calls) := by
  have hserver : ∀ id, Action.Keeps (Careful ids start) (client.deleteOwnedServer network id) :=
    client.deleteOwnedServer_careful network start
  have hgateway := client.deleteOwnedGateway_careful network hleads start
  induction calls with
  | nil => exact Action.keeps_pure _
  | cons call rest ih =>
      cases call with
      | provision backendUrl =>
          refine Action.Keeps.bind (Action.Keeps.attempt ?_) fun _ => ih
          exact client.provision_keeps network hserver hgateway
            (client.deleteReservedGatewaysOnce_careful network hleads start)
            (client.createGateway_careful network start)
            (client.finishProvision_careful network start) backendUrl
      | cleanup fixture =>
          exact Action.Keeps.bind
            (Action.Keeps.attempt (client.cleanup_keeps network hserver hgateway fixture))
            fun _ => ih

/-- The only gateway of the plane is cleaned up, and the log holds its deletion. -/
theorem cleanup_gatewayOnly (id : String) :
    client.runCalls (astrayDeletion id) [.cleanup (some ⟨id, officialConformanceServerId⟩)]
        ⟨gatewayOnly id, 0, []⟩ =
      (.ok (), ⟨(gatewayOnly id).delete (itemPath .gateways id), 3,
        [.servers [], .gateways (gatewayOnly id).listGateways] ++
          [.delete (itemPath .gateways id)]⟩) := by
  have hserver : client.deleteOwnedServer (astrayDeletion id) officialConformanceServerId
      ⟨gatewayOnly id, 0, []⟩ = (.ok (), ⟨gatewayOnly id, 1, [.servers []]⟩) := rfl
  have hlisted : client.listGateways (astrayDeletion id) ⟨gatewayOnly id, 1, [.servers []]⟩ =
      (.ok (gatewayOnly id).listGateways,
        ⟨gatewayOnly id, 2, [.servers [], .gateways (gatewayOnly id).listGateways]⟩) := rfl
  have hgateway := client.deleteOwnedGateway_eq_delete hlisted (gatewayOnly_matching id)
    (createdGateway_isOwned id)
  simp only [runCalls, cleanup, bind, Action.bind, Action.attempt, hserver, hgateway]
  rfl

theorem gatewayOnly_ownedIds {ids : String → Prop} {id : String} (hid : ids id)
    (path : List Char) :
    OwnedIds ids ([.servers [], .gateways (gatewayOnly id).listGateways] ++ [.delete path]) := by
  intro records hrecords gateway hgateway _
  obtain rfl : records = (gatewayOnly id).listGateways := by simpa using hrecords
  obtain rfl : gateway = ControlPlane.createdGateway id fixtureGateway :=
    List.mem_singleton.mp hgateway
  exact hid

/-- The deletion of the only gateway is careful only if its path leads nowhere else. -/
theorem gatewayOnly_leads {id : String}
    (howned : DeletionsOwned ([.servers [], .gateways (gatewayOnly id).listGateways] ++
      [.delete (itemPath .gateways id)])) : LeadsNowhereElse .gateways id := by
  intro other otherId hpath
  have hshown := (howned _ _ [] rfl).reached other otherId hpath
  cases other with
  | gateways =>
      obtain ⟨records, hlatest, gateway, hgateway, rfl, -⟩ := hshown
      obtain rfl : (gatewayOnly id).listGateways = records := Option.some.inj hlatest
      obtain rfl : gateway = ControlPlane.createdGateway id fixtureGateway :=
        List.mem_singleton.mp hgateway
      exact ⟨rfl, rfl⟩
  | servers =>
      obtain ⟨records, hlatest, server, hserver, -⟩ := hshown
      obtain rfl : [] = records := Option.some.inj hlatest
      cases hserver

end ConformanceFixtureClient

/-- A gateway of another user. -/
def usersGateway : GatewayRecord := ⟨"abc", "users", "http://users/mcp", gatewayTransport, none⟩

/-- The fixture's gateway has the id "abc#1" on a plane that other users share. -/
def sharedPlane : ControlPlane where
  gateways := (Registry.empty.create usersGateway).create
    (ControlPlane.createdGateway "abc#1" fixtureGateway)
  servers := .empty
  catalogs := ⟨[], [], []⟩

end CfIntegration.Fixture
