import CfIntegration.Foundation.Action
import CfIntegration.Foundation.Fallible
import CfIntegration.Foundation.History
import CfIntegration.Mcp.FixtureCatalog

/-! # Discovering the catalog of a fixture

The client opens a conversation with the fixture, lists what it has stage by stage, and
closes the session that it was given, whether the discovery went through or not.
-/

namespace CfIntegration.Mcp.FixtureSession

open Catalog (FixtureClient HttpRequest HttpReply FixtureError index isNull isObject rpc list
  listFrom cursorParams withoutItems)
open Gateway (mcpSessionId toStr)
open Protocol (isStatelessProtocol initializeWithIdAndVersion)

/-! ## The catalog -/

structure Tool where
  name : String
  inputSchema : List (String × Value)

structure Catalog where
  tools : List Tool
  resources : List String
  resourceTemplates : List String
  prompts : List String

inductive Halt where
  | rpc (error : FixtureError)
  | invalidName (method name : String)
  | tools
  | close (cause : String)
  /-- A listing took longer than the fuel. -/
  | exhausted
  deriving DecidableEq, Repr

def Halt.message : Halt → String
  | .rpc error => error.message
  | .invalidName method name => s!"fixture {method} has an invalid {name}"
  | .tools => "fixture tools must include names and input schemas"
  | .close _ => "failed to close fixture session"
  | .exhausted => ""

/-- A tool is read from an object, or from an array of its two fields. -/
def toolOf : Value → Option Tool
  | .object entries => do
      let name ← (entries.lookup "name").bind Value.asStr
      let schema ← (entries.lookup "inputSchema").bind Value.asObject
      return ⟨name, schema⟩
  | .array [name, schema] => do
      let name ← name.asStr
      let schema ← schema.asObject
      return ⟨name, schema⟩
  | _ => none

def nameOf (name : String) (item : Value) : Option String :=
  (index item name).asStr.filter (· ≠ "")

/-! ## The conversation -/

/-- What the fixture saw of a request, and what it said. -/
structure Exchange where
  request : HttpRequest
  reply : Except String HttpReply

structure Deletion where
  url : List Char
  session : List Char
  version : String
  deriving DecidableEq, Repr

structure Discovery (σ : Type) where
  result : Except Halt Catalog
  exchanges : List Exchange
  deletion : Option Deletion
  server : σ

section Conversation

variable {σ : Type} (parser : JsonParser) (serve : σ → HttpRequest → Except String HttpReply × σ)
  (delete : σ → Deletion → Except String Unit × σ)

/-- The server, with a record of the exchanges. -/
def recording (state : σ × List Exchange) (request : HttpRequest) :
    Except String HttpReply × σ × List Exchange :=
  let (reply, server) := serve state.1 request
  (reply, server, state.2 ++ [⟨request, reply⟩])

abbrev World (σ : Type) := FixtureClient × σ × List Exchange

abbrev FixtureAction (σ : Type) := Action (World σ) Halt

def call (method : String) (params : Value) (notification : Bool) : FixtureAction σ Value :=
  fun (client, server) =>
    let (result, world) := rpc parser (recording serve) method params notification client server
    (result.mapError .rpc, world)

def listing (fuel : Nat) (method field : String) : FixtureAction σ (List Value) :=
  fun (client, server) =>
    match list parser (recording serve) method field fuel client server with
    | none => (.error .exhausted, client, server)
    | some (result, world) => (result.mapError .rpc, world)

def names (fuel : Nat) (method field name : String) : FixtureAction σ (List String) := do
  let items ← listing parser serve fuel method field
  Action.ofExcept (items.mapM fun item => okOr (nameOf name item) (.invalidName method name))

def openSession (version : String) : FixtureAction σ Unit := do
  if isStatelessProtocol version then do
    let _ ← call parser serve "server/discover" (.object []) false
  else do
    let request := initializeWithIdAndVersion (.number (.unsigned 0)) version
    let _ ← call parser serve "initialize" (index request "params") false
    let _ ← call parser serve "notifications/initialized" (.object []) true

/-- The tools, all of them with a name. -/
def toolsOf (items : List Value) : Except Halt (List Tool) := do
  let tools ← items.mapM fun item => okOr (toolOf item) .tools
  bailIf (tools = [] ∨ tools.any fun tool => tool.name = "") .tools
  return tools

def catalog (fuel : Nat) (version : String) : FixtureAction σ Catalog := do
  openSession parser serve version
  let items ← listing parser serve fuel "tools/list" "tools"
  let tools ← Action.ofExcept (toolsOf items)
  let resources ← names parser serve fuel "resources/list" "resources" "uri"
  let resourceTemplates ←
    names parser serve fuel "resources/templates/list" "resourceTemplates" "uriTemplate"
  let prompts ← names parser serve fuel "prompts/list" "prompts" "name"
  return ⟨tools, resources, resourceTemplates, prompts⟩

/-- The error of the discovery comes before that of closing the session. -/
def closed (result : Except Halt Catalog) : Except String Unit → Except Halt Catalog
  | .ok () => result
  | .error cause => match result with
      | .ok _ => .error (.close cause)
      | .error error => .error error

/-- Deletes the session that the client holds. -/
def closeSession (version : String) (result : Except Halt Catalog) : World σ → Discovery σ
  | (client, server, exchanges) =>
      match client.session with
      | none => ⟨result, exchanges, none, server⟩
      | some session =>
          let deletion := ⟨client.url, session, version⟩
          let (cleanup, server) := delete server deletion
          ⟨closed result cleanup, exchanges, some deletion, server⟩

/-- Nothing where a listing does not end. -/
def fixtureCatalog (fuel : Nat) (url : List Char) (version : String) (server : σ) :
    Option (Discovery σ) :=
  match (catalog parser serve fuel version).run (⟨url, version, none, 0⟩, server, []) with
  | (.error .exhausted, _) => none
  | (result, world) => some (closeSession delete version result world)

end Conversation

/-! ## Turns -/

structure Message where
  method : String
  params : Value
  notification : Bool

/-- A message, with the client as it sends it. -/
structure Turn where
  client : FixtureClient
  message : Message
  reply : Except String HttpReply

namespace Turn

def exchange (turn : Turn) : Exchange where
  request := turn.client.request turn.message.method turn.message.params turn.message.notification
  reply := turn.reply

/-- The session that the reply hands out. -/
def session (turn : Turn) : Option (List Char) :=
  match turn.reply with
  | .ok reply => if reply.isSuccess then (reply.headers.get? mcpSessionId).bind toStr else none
  | .error _ => none

def Succeeds (turn : Turn) : Prop := ∃ reply, turn.reply = .ok reply ∧ reply.isSuccess = true

def Gives (parser : JsonParser) (turn : Turn) (page : Value) : Prop :=
  ∃ reply, turn.reply = .ok reply ∧ reply.Answers parser turn.client page

end Turn

def sessionAfter (turns : List Turn) : Option (List Char) := History.latest Turn.session turns

/-- The client that has taken some turns. -/
def clientAfter (url : List Char) (version : String) (turns : List Turn) : FixtureClient :=
  ⟨url, version, sessionAfter turns, UInt64.ofNat turns.length⟩

/-- Each message has the next number, and the session that was handed out last. -/
def Carried (url : List Char) (version : String) (turns : List Turn) : Prop :=
  History.Fits (fun before turn => turn.client = (clientAfter url version before).numbered) turns

section Spec

variable {σ : Type} {parser : JsonParser} {serve : σ → HttpRequest → Except String HttpReply × σ}
  {url : List Char} {version : String} {turns : List Turn}

/-- Only a successful reply may give the client a session. -/
theorem receive_client (client : FixtureClient) (method : String) (notification : Bool)
    (reply : HttpReply) : (client.receive parser method notification reply).2 =
      if reply.isSuccess then client.withSession reply.headers else client := by
  unfold FixtureClient.receive FixtureClient.withSession
  by_cases hsuccess : reply.isSuccess = true
  · rw [if_neg (by simp [hsuccess]), if_pos hsuccess]
    cases reply.headers.get? mcpSessionId with
    | none => rfl
    | some value =>
        dsimp only [Option.bind_some]
        cases toStr value <;> rfl
  · rw [if_pos (by simpa using hsuccess), if_neg hsuccess]

theorem receive_ok {client : FixtureClient} {method : String} {notification : Bool}
    {reply : HttpReply} {value : Value}
    (hok : (client.receive parser method notification reply).1 = .ok value) :
    reply.isSuccess = true ∧ (notification = false → reply.Answers parser client value) := by
  constructor
  · by_contra hfailed
    unfold FixtureClient.receive at hok
    rw [if_pos (by simpa using hfailed)] at hok
    cases hok
  · rintro rfl
    exact (Catalog.receive_eq_ok_iff.mp (Prod.ext hok rfl)).1

/-- The world after some turns. -/
structure Holds (url : List Char) (version : String) (turns : List Turn) (world : World σ) :
    Prop where
  client : world.1 = clientAfter url version turns
  exchanges : world.2.2 = turns.map Turn.exchange
  carried : Carried url version turns

theorem clientAfter_concat (turns : List Turn) (turn : Turn)
    (hclient : turn.client = (clientAfter url version turns).numbered) :
    clientAfter url version (turns ++ [turn]) = match turn.reply with
      | .ok reply => if reply.isSuccess then turn.client.withSession reply.headers else turn.client
      | .error _ => turn.client := by
  have hnumber : UInt64.ofNat (turns ++ [turn]).length = UInt64.ofNat turns.length + 1 := by
    rw [List.length_append, List.length_singleton, UInt64.ofNat_add]
    rfl
  unfold clientAfter sessionAfter
  rw [hnumber, History.latest_concat, hclient]
  unfold Turn.session FixtureClient.withSession
  cases turn.reply with
  | error cause => rfl
  | ok reply =>
      dsimp only
      split
      next =>
        cases (reply.headers.get? mcpSessionId).bind toStr <;> rfl
      next => rfl

/-- One more turn extends what holds of the client. -/
theorem Holds.concat {world after : World σ} {turn : Turn} (hholds : Holds url version turns world)
    (hturn : turn.client = world.1.numbered)
    (hclient : after.1 = match turn.reply with
      | .ok reply => if reply.isSuccess then turn.client.withSession reply.headers else turn.client
      | .error _ => turn.client)
    (hexchanges : after.2.2 = world.2.2 ++ [turn.exchange]) :
    Holds url version (turns ++ [turn]) after where
  client := by
    rw [hclient, clientAfter_concat turns turn (hholds.client ▸ hturn)]
  exchanges := by
    rw [hexchanges, hholds.exchanges, List.map_append]
    rfl
  carried := hholds.carried.concat (hholds.client ▸ hturn)

theorem rpc_recording {client : FixtureClient} {method : String} {params : Value}
    {notification : Bool} {server state : σ} {reply : Except String HttpReply}
    (exchanges : List Exchange)
    (hserve : serve server (client.numbered.request method params notification) = (reply, state)) :
    rpc parser (recording serve) method params notification client (server, exchanges) =
      match reply with
      | .error cause => (.error (.send method cause), client.numbered, state,
          exchanges ++ [⟨client.numbered.request method params notification, .error cause⟩])
      | .ok reply => ((client.numbered.receive parser method notification reply).1,
          (client.numbered.receive parser method notification reply).2, state,
          exchanges ++ [⟨client.numbered.request method params notification, .ok reply⟩]) := by
  unfold FixtureClient.numbered at hserve ⊢
  cases reply <;> simp only [rpc, recording, hserve]

/-- A turn with what it has come to. -/
structure Took (parser : JsonParser) (url : List Char) (version : String) (turns : List Turn)
    (sent : Message) (turn : Turn) (value : Except FixtureError Value) (after : World σ) :
    Prop where
  message : turn.message = sent
  holds : Holds url version (turns ++ [turn]) after
  ok : ∀ page, value = .ok page →
    turn.Succeeds ∧ (sent.notification = false → turn.Gives parser page)

/-- A call takes one turn. -/
theorem rpc_spec {world : World σ} (method : String) (params : Value) (notification : Bool)
    (hholds : Holds url version turns world) : ∃ turn, Took parser url version turns
      ⟨method, params, notification⟩ turn
      (rpc parser (recording serve) method params notification world.1 world.2).1
      (rpc parser (recording serve) method params notification world.1 world.2).2 := by
  obtain ⟨client, server, exchanges⟩ := world
  rcases hserve : serve server (client.numbered.request method params notification) with
    ⟨reply, state⟩
  refine ⟨⟨client.numbered, ⟨method, params, notification⟩, reply⟩, ?_⟩
  rw [rpc_recording exchanges hserve]
  cases reply with
  | error cause => exact ⟨rfl, hholds.concat rfl rfl rfl, nofun⟩
  | ok reply =>
      refine ⟨rfl, hholds.concat rfl (receive_client _ _ _ _) rfl, fun page hok => ?_⟩
      obtain ⟨hsuccess, hanswers⟩ := receive_ok hok
      exact ⟨⟨reply, rfl, hsuccess⟩, fun hrequest => ⟨reply, rfl, hanswers hrequest⟩⟩

end Spec

/-! ## Stages -/

/-- One of the listings of a discovery. -/
structure Stage where
  method : String
  field : String

def Stage.message (stage : Stage) (params : Value) : Message := ⟨stage.method, params, false⟩

/-- The turns of a listing that may have stopped: each page is asked for by the cursor of the
page before, and no cursor comes back. -/
inductive Asking (parser : JsonParser) (stage : Stage) :
    List String → Value → List Turn → Prop where
  | none {seen : List String} {params : Value} : Asking parser stage seen params []
  | last {seen : List String} {params : Value} {turn : Turn}
      (hmessage : turn.message = stage.message params) : Asking parser stage seen params [turn]
  | next {seen : List String} {params : Value} {turn : Turn} {turns : List Turn} {page : Value}
      {cursor : String} (hmessage : turn.message = stage.message params)
      (hgives : turn.Gives parser page) (hcursor : index page "nextCursor" = .string cursor)
      (hfresh : cursor ∉ seen)
      (hrest : Asking parser stage (cursor :: seen) (cursorParams cursor) turns) :
      Asking parser stage seen params (turn :: turns)

/-- The turns of a listing up to a page without a cursor, with the items of all pages. -/
inductive Paged (parser : JsonParser) (stage : Stage) :
    List String → Value → List Turn → List Value → Prop where
  | last {seen : List String} {params : Value} {turn : Turn} {page : Value} {items : List Value}
      (hmessage : turn.message = stage.message params) (hgives : turn.Gives parser page)
      (hitems : index page stage.field = .array items)
      (hcursor : index page "nextCursor" = .null) : Paged parser stage seen params [turn] items
  | next {seen : List String} {params : Value} {turn : Turn} {turns : List Turn} {page : Value}
      {items rest : List Value} {cursor : String} (hmessage : turn.message = stage.message params)
      (hgives : turn.Gives parser page) (hitems : index page stage.field = .array items)
      (hcursor : index page "nextCursor" = .string cursor) (hfresh : cursor ∉ seen)
      (hrest : Paged parser stage (cursor :: seen) (cursorParams cursor) turns rest) :
      Paged parser stage seen params (turn :: turns) (items ++ rest)

section Listing

variable {σ : Type} {parser : JsonParser} {serve : σ → HttpRequest → Except String HttpReply × σ}
  {url : List Char} {version : String} {turns : List Turn}

/-- What a listing has added. -/
structure ListedFrom (parser : JsonParser) (url : List Char) (version : String) (turns : List Turn)
    (stage : Stage) (seen : List String) (params : Value) (items : List Value)
    (result : Except FixtureError (List Value)) (after : World σ) (added : List Turn) : Prop where
  holds : Holds url version (turns ++ added) after
  asking : Asking parser stage seen params added
  paged : ∀ found, result = .ok found → ∃ more, found = items ++ more ∧
    Paged parser stage seen params added more

theorem listFrom_spec {stage : Stage} (hfield : stage.field ≠ "nextCursor") (fuel : Nat)
    {world after : World σ} {params : Value} {items : List Value} {cursors : OrderedSet String}
    {seen : List String} {result : Except FixtureError (List Value)}
    (hseen : ∀ name, name ∈ cursors ↔ name ∈ seen) (hholds : Holds url version turns world)
    (hrun : listFrom parser (recording serve) stage.method stage.field fuel world.1 world.2 params
      items cursors = some (result, after)) :
    ∃ added, ListedFrom parser url version turns stage seen params items result after added := by
  induction fuel generalizing turns world params items cursors seen with
  | zero => cases hrun
  | succ fuel ih =>
      obtain ⟨turn, htook⟩ := @rpc_spec _ parser serve _ _ _ _ stage.method params false hholds
      rw [listFrom] at hrun
      generalize rpc parser (recording serve) stage.method params false world.1 world.2 = outcome
        at htook hrun
      obtain ⟨value, reached⟩ := outcome
      have hstopped : ∀ error, ListedFrom parser url version turns stage seen params items
          (.error error) reached [turn] := fun error =>
        ⟨htook.holds, .last htook.message, fun _ hok => by cases hok⟩
      cases value with
      | error error =>
          cases hrun
          exact ⟨[turn], hstopped error⟩
      | ok page =>
          obtain ⟨-, hgives⟩ := htook.ok page rfl
          cases hitems : (index page stage.field).asArray with
          | none =>
              simp only [hitems] at hrun
              cases hrun
              exact ⟨[turn], hstopped _⟩
          | some more =>
              simp only [hitems, Catalog.index_withoutItems hitems, if_neg hfield] at hrun
              rw [Catalog.asArray_eq_some] at hitems
              cases hcursor : index page "nextCursor" with
              | null =>
                  simp only [hcursor, Catalog.isNull, if_true] at hrun
                  cases hrun
                  refine ⟨[turn], htook.holds, .last htook.message, fun found hok => ?_⟩
                  cases hok
                  exact ⟨more, rfl, .last htook.message (hgives rfl) hitems hcursor⟩
              | string cursor =>
                  simp only [hcursor, Catalog.isNull, Bool.false_eq_true, if_false] at hrun
                  split at hrun
                  next =>
                    cases hrun
                    exact ⟨[turn], hstopped _⟩
                  next hnew =>
                    have hfresh : cursor ∉ seen := fun hmem => hnew ((hseen cursor).mpr hmem)
                    obtain ⟨added, hadded⟩ := ih (fun name => by
                      rw [OrderedSet.mem_insert, hseen, List.mem_cons]) htook.holds hrun
                    refine ⟨turn :: added, ?_, .next htook.message (hgives rfl) hcursor hfresh
                      hadded.asking, fun found hok => ?_⟩
                    · rw [List.append_cons]
                      exact hadded.holds
                    · obtain ⟨rest, rfl, hpaged⟩ := hadded.paged found hok
                      exact ⟨more ++ rest, List.append_assoc _ _ _,
                        .next htook.message (hgives rfl) hitems hcursor hfresh hpaged⟩
              | bool _ | number _ | array _ | object _ =>
                  simp only [hcursor, Catalog.isNull, Bool.false_eq_true, if_false] at hrun
                  cases hrun
                  exact ⟨[turn], hstopped _⟩

/-- What a stage leaves, however it ends. -/
structure Staged (parser : JsonParser) (url : List Char) (version : String) (turns : List Turn)
    (stage : Stage) (result : Except Halt (List Value)) (after : World σ) (added : List Turn) :
    Prop where
  holds : Holds url version (turns ++ added) after
  asking : Asking parser stage [] (.object []) added
  paged : ∀ found, result = .ok found → Paged parser stage [] (.object []) added found

/-- A listing takes its turns page by page. -/
theorem listing_spec {stage : Stage} (hfield : stage.field ≠ "nextCursor") (fuel : Nat)
    {world : World σ} (hholds : Holds url version turns world) :
    (listing parser serve fuel stage.method stage.field).Ensures world fun result after =>
      result = .error .exhausted ∨ ∃ added, Staged parser url version turns stage result after
        added := by
  cases hrun : list parser (recording serve) stage.method stage.field fuel world.1 world.2 with
  | none =>
      have hlisted : listing parser serve fuel stage.method stage.field world =
          (.error .exhausted, world) := by
        unfold listing
        simp only [hrun]
      exact Action.ensures_of_eq hlisted (.inl rfl)
  | some outcome =>
      obtain ⟨result, after⟩ := outcome
      have hlisted : listing parser serve fuel stage.method stage.field world =
          (result.mapError .rpc, after) := by
        unfold listing
        simp only [hrun]
      have hnone : ∀ name, name ∈ (OrderedSet.empty : OrderedSet String) ↔
          name ∈ ([] : List String) := by simp
      obtain ⟨added, hadded⟩ := listFrom_spec hfield fuel hnone hholds hrun
      refine Action.ensures_of_eq hlisted
        (.inr ⟨added, hadded.holds, hadded.asking, fun found hok => ?_⟩)
      cases result with
      | error error => cases hok
      | ok items =>
          cases hok
          obtain ⟨more, rfl, hpaged⟩ := hadded.paged _ rfl
          exact hpaged

end Listing

/-! ## The order of the turns -/

def openingMessages (version : String) : List Message :=
  if isStatelessProtocol version then [⟨"server/discover", .object [], false⟩]
  else [⟨"initialize",
      index (initializeWithIdAndVersion (.number (.unsigned 0)) version) "params", false⟩,
    ⟨"notifications/initialized", .object [], true⟩]

def stages : List Stage :=
  [⟨"tools/list", "tools"⟩, ⟨"resources/list", "resources"⟩,
    ⟨"resources/templates/list", "resourceTemplates"⟩, ⟨"prompts/list", "prompts"⟩]

structure Opened (version : String) (opening : List Turn) : Prop where
  messages : opening.map Turn.message = openingMessages version
  succeeded : ∀ turn ∈ opening, turn.Succeeds

/-- The turns of stages that have been listed, with the items of each. -/
inductive Listings (parser : JsonParser) : List Stage → List Turn → List (List Value) → Prop where
  | nil : Listings parser [] [] []
  | concat {stages : List Stage} {stage : Stage} {turns pages : List Turn}
      {found : List (List Value)} {items : List Value}
      (hbefore : Listings parser stages turns found)
      (hpaged : Paged parser stage [] (.object []) pages items) :
      Listings parser (stages ++ [stage]) (turns ++ pages) (found ++ [items])

/-- The turns of a discovery, up to where it stopped. -/
inductive Follows (parser : JsonParser) (version : String) : List Turn → Prop where
  | opening {turns : List Turn} (hmessages : turns.map Turn.message <+: openingMessages version) :
      Follows parser version turns
  | listing {opening before pages : List Turn} {done rest : List Stage} {stage : Stage}
      {found : List (List Value)} (hstages : stages = done ++ stage :: rest)
      (hopened : Opened version opening) (hbefore : Listings parser done before found)
      (hasking : Asking parser stage [] (.object []) pages) :
      Follows parser version (opening ++ before ++ pages)

/-- A catalog with all items of all stages. -/
structure Discovered (parser : JsonParser) (version : String) (turns : List Turn)
    (catalog : Catalog) : Prop where
  listed : ∃ opening listings tools resources templates prompts, turns = opening ++ listings ∧
    Opened version opening ∧
    Listings parser stages listings [tools, resources, templates, prompts] ∧
    tools.map toolOf = catalog.tools.map some ∧
    resources.map (nameOf "uri") = catalog.resources.map some ∧
    templates.map (nameOf "uriTemplate") = catalog.resourceTemplates.map some ∧
    prompts.map (nameOf "name") = catalog.prompts.map some
  some : catalog.tools ≠ []
  named : ∀ tool ∈ catalog.tools, tool.name ≠ ""

section Discover

variable {σ : Type} {parser : JsonParser} {serve : σ → HttpRequest → Except String HttpReply × σ}
  {url : List Char} {version : String}

theorem mapM_okOr {α β ε : Type} {f : α → Option β} {error : ε} {items : List α}
    {found : List β} (hok : (items.mapM fun item => okOr (f item) error) = .ok found) :
    items.map f = found.map some := by
  rw [except_mapM_eq_ok] at hok
  induction hok with
  | nil => rfl
  | cons hitem _ ih => rw [List.map_cons, List.map_cons, okOr_eq_ok.mp hitem, ih]

theorem mapM_okOr_error {α β ε : Type} {f : α → Option β} {error other : ε} {items : List α}
    (hfailed : (items.mapM fun item => okOr (f item) error) = .error other) : other = error := by
  induction items with
  | nil => cases hfailed
  | cons item rest ih =>
      rw [List.mapM_cons] at hfailed
      cases hitem : f item with
      | none =>
          rw [hitem] at hfailed
          cases hfailed
          rfl
      | some value =>
          cases hrest : rest.mapM fun item => okOr (f item) error with
          | error cause =>
              rw [hitem, hrest] at hfailed
              cases hfailed
              exact ih hrest
          | ok found =>
              rw [hitem, hrest] at hfailed
              cases hfailed

/-- A stop that the order allows. -/
def Stopped (parser : JsonParser) (url : List Char) (version : String) (after : World σ) : Prop :=
  ∃ turns, Holds url version turns after ∧ Follows parser version turns

theorem call_spec {turns : List Turn} {world : World σ} (method : String) (params : Value)
    (notification : Bool) (hholds : Holds url version turns world) :
    (call parser serve method params notification).Ensures world fun result after =>
      ∃ turn, turn.message = ⟨method, params, notification⟩ ∧
        Holds url version (turns ++ [turn]) after ∧
          ∀ value, result = .ok value → turn.Succeeds := by
  obtain ⟨turn, htook⟩ := @rpc_spec _ parser serve _ _ _ _ method params notification hholds
  rcases hrun : rpc parser (recording serve) method params notification world.1 world.2 with
    ⟨value, after⟩
  have hcalled : call parser serve method params notification world =
      (value.mapError .rpc, after) := by
    unfold call
    simp only [hrun]
  rw [hrun] at htook
  refine Action.ensures_of_eq hcalled ⟨turn, htook.message, htook.holds, fun page hok => ?_⟩
  cases value with
  | error error => cases hok
  | ok value => exact (htook.ok value rfl).1

/-- The end of an opening: what was sent last went through, or not. -/
theorem opened_of_last {before : List Turn} {turn : Turn} {after : World σ}
    {result : Except Halt Unit}
    (hmessages : (before ++ [turn]).map Turn.message = openingMessages version)
    (hbefore : ∀ other ∈ before, other.Succeeds)
    (hholds : Holds url version (before ++ [turn]) after)
    (hturn : result = .ok () → turn.Succeeds) : Stopped parser url version after ∧
      (result = .ok () → ∃ opening, Holds url version opening after ∧ Opened version opening) := by
  refine ⟨⟨_, hholds, .opening (hmessages ▸ List.prefix_rfl)⟩,
    fun hok => ⟨_, hholds, hmessages, ?_⟩⟩
  intro other hother
  rcases List.mem_append.mp hother with hother | hother
  · exact hbefore other hother
  · cases List.mem_singleton.mp hother
    exact hturn hok

/-- A session that opens has its opening on record. -/
theorem openSession_spec {world : World σ} (hholds : Holds url version [] world) :
    (openSession parser serve version).Ensures world fun result after =>
      Stopped parser url version after ∧ (result = .ok () →
        ∃ opening, Holds url version opening after ∧ Opened version opening) := by
  unfold openSession
  split
  next hmodern =>
    have hmessages : openingMessages version = [⟨"server/discover", .object [], false⟩] :=
      if_pos hmodern
    refine (call_spec "server/discover" (.object []) false hholds).bind ?_ ?_
    · rintro value after ⟨turn, hmessage, hafter, hturn⟩
      refine Action.ensures_pure.mpr (@opened_of_last _ _ _ _ [] turn after (.ok ()) ?_ nofun hafter
        fun _ => hturn value rfl)
      simp [hmessages, hmessage]
    · rintro error after ⟨turn, hmessage, hafter, -⟩
      refine ⟨⟨_, hafter, .opening ?_⟩, nofun⟩
      simp [hmessages, hmessage]
  next hlegacy =>
    have hmessages : openingMessages version = [⟨"initialize", index (initializeWithIdAndVersion
        (.number (.unsigned 0)) version) "params", false⟩,
          ⟨"notifications/initialized", .object [], true⟩] := if_neg hlegacy
    refine (call_spec "initialize" _ false hholds).bind ?_ ?_
    · rintro value first ⟨turn, hmessage, hfirst, hturn⟩
      have hbefore : ∀ other ∈ [turn], other.Succeeds := by
        intro other hother
        cases List.mem_singleton.mp hother
        exact hturn value rfl
      refine (call_spec "notifications/initialized" (.object []) true hfirst).bind ?_ ?_
      · rintro other after ⟨last, hlast, hafter, hsucceeded⟩
        refine Action.ensures_pure.mpr (@opened_of_last _ _ _ _ [turn] last after (.ok ()) ?_
          hbefore hafter fun _ => hsucceeded other rfl)
        simp [hmessages, hmessage, hlast]
      · rintro error after ⟨last, hlast, hafter, -⟩
        refine ⟨⟨_, hafter, .opening ?_⟩, nofun⟩
        simp [hmessages, hmessage, hlast]
    · rintro error after ⟨turn, hmessage, hafter, -⟩
      refine ⟨⟨_, hafter, .opening ?_⟩, nofun⟩
      simp [hmessages, hmessage, List.prefix_cons_iff]

/-- The stages that are done, at the start of the next one. -/
structure Progress (parser : JsonParser) (url : List Char) (version : String)
    (opening listings : List Turn) (done : List Stage) (found : List (List Value))
    (world : World σ) : Prop where
  opened : Opened version opening
  listed : Listings parser done listings found
  holds : Holds url version (opening ++ listings) world
  follows : Follows parser version (opening ++ listings)

/-- What follows on the stages that are done, however it ends. -/
def Ends {α : Type} (parser : JsonParser) (url : List Char) (version : String)
    (next : α → World σ → Prop) (result : Except Halt α) (after : World σ) : Prop :=
  match result with
  | .ok value => next value after
  | .error error => error = .exhausted ∨ Stopped parser url version after

section Stages
variable {opening listings : List Turn} {done rest : List Stage}
  {found : List (List Value)} {world : World σ}

/-- A discovery may stop at any of its stages. -/
theorem Progress.stopped
    (hprogress : Progress parser url version opening listings done found world) :
    Stopped parser url version world := ⟨_, hprogress.holds, hprogress.follows⟩

theorem Progress.listing (fuel : Nat) (stage : Stage)
    (hprogress : Progress parser url version opening listings done found world)
    (hstages : stages = done ++ stage :: rest) (hfield : stage.field ≠ "nextCursor") :
    (listing parser serve fuel stage.method stage.field).Ensures world
      (Ends parser url version fun items after => ∃ listings, Progress parser url version opening
        listings (done ++ [stage]) (found ++ [items]) after) := by
  refine (listing_spec hfield fuel hprogress.holds).mono ?_
  rintro result after (rfl | ⟨added, hstaged⟩)
  · exact .inl rfl
  · have hfollows : Follows parser version (opening ++ listings ++ added) :=
      .listing hstages hprogress.opened hprogress.listed hstaged.asking
    cases result with
    | error error => exact .inr ⟨_, hstaged.holds, hfollows⟩
    | ok items =>
        refine ⟨listings ++ added, hprogress.opened,
          hprogress.listed.concat (hstaged.paged items rfl), ?_, ?_⟩
        · rw [← List.append_assoc]
          exact hstaged.holds
        · rw [← List.append_assoc]
          exact hfollows

theorem Progress.names (fuel : Nat) (stage : Stage) (name : String)
    (hprogress : Progress parser url version opening listings done found world)
    (hstages : stages = done ++ stage :: rest) (hfield : stage.field ≠ "nextCursor") :
    (names parser serve fuel stage.method stage.field name).Ensures world
      (Ends parser url version fun names after => ∃ items listings,
        items.map (nameOf name) = names.map some ∧ Progress parser url version opening listings
          (done ++ [stage]) (found ++ [items]) after) := by
  refine (hprogress.listing fuel stage hstages hfield).bind ?_ fun _ _ hended => hended
  rintro items after ⟨listings, hlisted⟩
  refine Action.ensures_ofExcept.mpr ?_
  cases hnames : items.mapM fun item =>
      okOr (nameOf name item) (Halt.invalidName stage.method name) with
  | error error => exact .inr hlisted.stopped
  | ok names => exact ⟨items, listings, mapM_okOr hnames, hlisted⟩

end Stages

theorem toolsOf_eq_ok {items : List Value} {tools : List Tool} (hok : toolsOf items = .ok tools) :
    items.map toolOf = tools.map some ∧ tools ≠ [] ∧ ∀ tool ∈ tools, tool.name ≠ "" := by
  obtain ⟨found, hfound, hrest⟩ := except_bind_eq_ok.mp hok
  obtain ⟨_, hnone, hsame⟩ := except_bind_eq_ok.mp hrest
  cases hsame
  rw [bailIf_eq_ok, not_or, List.any_eq_true] at hnone
  exact ⟨mapM_okOr hfound, hnone.1,
    fun tool htool hname => hnone.2 ⟨tool, htool, by simpa using hname⟩⟩

/-- A discovery with all of its stages, or up to where it stopped. -/
theorem catalog_spec (fuel : Nat) {world : World σ} (hholds : Holds url version [] world) :
    (catalog parser serve fuel version).Ensures world (Ends parser url version fun catalog after =>
      ∃ turns, Holds url version turns after ∧ Follows parser version turns ∧
        Discovered parser version turns catalog) := by
  unfold catalog
  refine (openSession_spec hholds).bind ?_ fun _ _ hstopped => .inr hstopped.1
  rintro ⟨⟩ first ⟨-, hopened⟩
  obtain ⟨opening, hfirst, hopened⟩ := hopened rfl
  have hstart : Progress parser url version opening [] [] [] first :=
    ⟨hopened, .nil, (List.append_nil opening).symm ▸ hfirst,
      (List.append_nil opening).symm ▸ .opening (hopened.messages ▸ List.prefix_rfl)⟩
  refine (hstart.listing fuel ⟨"tools/list", "tools"⟩ rfl (by decide)).bind ?_
    fun _ _ hended => hended
  rintro items second ⟨_, htools⟩
  refine Action.Ensures.ofExcept (fun tools hfound => ?_) fun _ _ => .inr htools.stopped
  refine (htools.names fuel ⟨"resources/list", "resources"⟩ "uri" rfl (by decide)).bind ?_
    fun _ _ hended => hended
  rintro resources third ⟨_, _, hresources, hthird⟩
  refine (hthird.names fuel ⟨"resources/templates/list", "resourceTemplates"⟩ "uriTemplate" rfl
    (by decide)).bind ?_ fun _ _ hended => hended
  rintro templates fourth ⟨_, _, htemplates, hfourth⟩
  refine (hfourth.names fuel ⟨"prompts/list", "prompts"⟩ "name" rfl (by decide)).bind ?_
    fun _ _ hended => hended
  rintro prompts after ⟨_, _, hprompts, hlast⟩
  obtain ⟨htools, hsome, hnamed⟩ := toolsOf_eq_ok hfound
  exact Action.ensures_pure.mpr ⟨_, hlast.holds, hlast.follows,
    ⟨_, _, _, _, _, _, rfl, hlast.opened, hlast.listed, htools, hresources, htemplates, hprompts⟩,
    hsome, hnamed⟩

/-! ## Where a discovery ends -/

/-- The fixture names only known cursors. -/
def Bounded (parser : JsonParser) (serve : σ → HttpRequest → Except String HttpReply × σ)
    (known : List String) : Prop :=
  ∀ server request reply (client : FixtureClient) page cursor,
    (serve server request).1 = .ok reply → reply.Answers parser client page →
      index page "nextCursor" = .string cursor → cursor ∈ known

def Settles {α : Type} (action : FixtureAction σ α) : Prop :=
  ∀ world, action.Ensures world fun result _ => result ≠ .error .exhausted

/-- Two steps that settle do so one after the other. -/
theorem Settles.bind {α β : Type} {action : FixtureAction σ α} {next : α → FixtureAction σ β}
    (haction : Settles action) (hnext : ∀ value, Settles (next value)) :
    Settles (action >>= next) := fun world =>
  (haction world).bind (fun value after _ => hnext value after) fun error _ herror hexhausted =>
    herror (by cases hexhausted; rfl)

theorem call_settles (method : String) (params : Value) (notification : Bool) :
    Settles (call parser serve method params notification) := by
  intro world
  rcases hrun : rpc parser (recording serve) method params notification world.1 world.2 with
    ⟨value, after⟩
  have hcalled : call parser serve method params notification world =
      (value.mapError .rpc, after) := by
    unfold call
    simp only [hrun]
  refine Action.ensures_of_eq hcalled ?_
  cases value <;> exact nofun

variable {known : List String} {fuel : Nat}

theorem listing_settles (hbounded : Bounded parser serve known) (hfuel : known.length < fuel)
    (method field : String) : Settles (listing parser serve fuel method field) := by
  intro world
  obtain ⟨⟨result, after⟩, hended⟩ := (Catalog.list_complete parser (recording serve) method field
    world.1 world.2).1 known (by
      intro batches cursors reached cursor hchain
      induction hchain with
      | start => exact List.nil_subset known
      | @next _ _ world after _ page _ name _ hserves _ hcursor ih =>
          obtain ⟨reply, hreply, hanswers, -⟩ := hserves
          have hserved :
              (serve world.2.1 (world.1.numbered.request method _ false)).1 = .ok reply :=
            congrArg Prod.fst hreply
          exact List.append_subset.mpr ⟨ih, List.cons_subset.mpr
            ⟨hbounded _ _ _ _ _ _ hserved hanswers hcursor, List.nil_subset known⟩⟩)
  have hlisted : listing parser serve fuel method field world = (result.mapError .rpc, after) := by
    unfold listing
    simp only [hended fuel hfuel]
  refine Action.ensures_of_eq hlisted ?_
  cases result <;> exact nofun

theorem names_settles (hbounded : Bounded parser serve known) (hfuel : known.length < fuel)
    (method field name : String) : Settles (names parser serve fuel method field name) := by
  refine (listing_settles hbounded hfuel method field).bind fun items world => ?_
  exact Action.ensures_ofExcept.mpr fun hexhausted => nomatch mapM_okOr_error hexhausted

theorem toolsOf_settles (items : List Value) : toolsOf items ≠ .error .exhausted := by
  intro hexhausted
  unfold toolsOf at hexhausted
  cases htools : items.mapM fun item => okOr (toolOf item) Halt.tools with
  | error error =>
      rw [htools] at hexhausted
      cases hexhausted
      cases mapM_okOr_error htools
  | ok tools =>
      rw [htools] at hexhausted
      change (bailIf _ _ >>= fun _ => _) = _ at hexhausted
      unfold bailIf at hexhausted
      split at hexhausted <;> cases hexhausted

/-- With finitely many cursors the discovery runs out of no fuel. -/
theorem catalog_settles (hbounded : Bounded parser serve known) (hfuel : known.length < fuel) :
    Settles (catalog parser serve fuel version) := by
  have hopening : Settles (openSession parser serve version) := by
    unfold openSession
    split
    next => exact (call_settles _ _ _).bind fun _ _ => nofun
    next => exact (call_settles _ _ _).bind fun _ => (call_settles _ _ _).bind fun _ _ => nofun
  refine hopening.bind fun _ => (listing_settles hbounded hfuel _ _).bind fun items => ?_
  exact Settles.bind (fun world => Action.ensures_ofExcept.mpr (toolsOf_settles items)) fun tools =>
    (names_settles hbounded hfuel _ _ _).bind fun _ => (names_settles hbounded hfuel _ _ _).bind
      fun _ => (names_settles hbounded hfuel _ _ _).bind fun _ _ => nofun

/-- A discovery, with the turns that were taken. -/
structure Conversation (parser : JsonParser) (url : List Char) (version : String)
    (turns : List Turn) (discovery : Discovery σ) : Prop where
  exchanges : discovery.exchanges = turns.map Turn.exchange
  carried : Carried url version turns
  follows : Follows parser version turns
  closed : discovery.deletion = (sessionAfter turns).map fun session => ⟨url, session, version⟩
  discovered : ∀ catalog, discovery.result = .ok catalog → Discovered parser version turns catalog

/-- A closed discovery has the catalog that it found. -/
theorem closed_eq_ok {result : Except Halt Catalog} {cleanup : Except String Unit}
    {catalog : Catalog} (hok : closed result cleanup = .ok catalog) : result = .ok catalog := by
  unfold closed at hok
  cases cleanup with
  | ok => exact hok
  | error cause => cases result <;> cases hok

theorem Holds.closeSession {turns : List Turn} {world : World σ}
    {delete : σ → Deletion → Except String Unit × σ} {result : Except Halt Catalog}
    (hholds : Holds url version turns world) (hfollows : Follows parser version turns)
    (hdiscovered : ∀ catalog, result = .ok catalog → Discovered parser version turns catalog) :
    Conversation parser url version turns (closeSession delete version result world) := by
  obtain ⟨client, server, exchanges⟩ := world
  have hurl : client.url = url := congrArg FixtureClient.url hholds.client
  have hsession : client.session = sessionAfter turns :=
    congrArg FixtureClient.session hholds.client
  unfold FixtureSession.closeSession
  dsimp only
  split
  next hnone =>
    exact ⟨hholds.exchanges, hholds.carried, hfollows, by rw [← hsession, hnone]; rfl, hdiscovered⟩
  next session hsome =>
    exact ⟨hholds.exchanges, hholds.carried, hfollows, by rw [← hsession, hsome, ← hurl]; rfl,
      fun catalog hok => hdiscovered catalog (closed_eq_ok hok)⟩

/-- The discovery ends for every server with finitely many cursors. -/
theorem fixtureCatalog_ends {delete : σ → Deletion → Except String Unit × σ}
    (hbounded : Bounded parser serve known) (hfuel : known.length < fuel) (server : σ) :
    ∃ discovery, fixtureCatalog parser serve delete fuel url version server = some discovery := by
  unfold fixtureCatalog
  rcases hrun : (catalog parser serve fuel version).run (⟨url, version, none, 0⟩, server, []) with
    ⟨result, world⟩
  have hsettled := (catalog_settles hbounded hfuel _).of_run hrun
  split
  next hexhausted =>
    cases hexhausted
    exact absurd rfl hsettled
  next => exact ⟨_, rfl⟩

/-- What was exchanged is one conversation with the server. -/
theorem fixtureCatalog_conversation {delete : σ → Deletion → Except String Unit × σ} {server : σ}
    {discovery : Discovery σ}
    (hsome : fixtureCatalog parser serve delete fuel url version server = some discovery) :
    ∃ turns, Conversation parser url version turns discovery := by
  have hstart : Holds url version [] ((⟨url, version, none, 0⟩, server, []) : World σ) :=
    ⟨rfl, rfl, History.fits_nil _⟩
  unfold fixtureCatalog at hsome
  rcases hrun : (catalog parser serve fuel version).run (⟨url, version, none, 0⟩, server, []) with
    ⟨result, world⟩
  have hended := (catalog_spec fuel hstart).of_run hrun
  rw [hrun] at hsome
  split at hsome
  next => cases hsome
  next hunended heq =>
    cases heq
    cases hsome
    cases result with
    | ok catalog =>
        obtain ⟨turns, hholds, hfollows, hdiscovered⟩ := hended
        exact ⟨turns, hholds.closeSession hfollows fun other hok => by
          cases hok
          exact hdiscovered⟩
    | error error =>
        rcases hended with rfl | ⟨turns, hholds, hfollows⟩
        · exact absurd rfl hunended
        · exact ⟨turns, hholds.closeSession hfollows nofun⟩

/-- A fixture that names finitely many cursors is discovered to an end. Whatever it answers, the
messages follow the order of the protocol, number themselves and carry the session that was handed
out last; that session, if there is one, is deleted at the end. A catalog that is returned has the
items of all pages of all stages. -/
theorem fixtureCatalog_converses (parser : JsonParser)
    (serve : σ → HttpRequest → Except String HttpReply × σ)
    (delete : σ → Deletion → Except String Unit × σ) (url : List Char) (version : String)
    (server : σ) :
    (∀ known, Bounded parser serve known → ∀ fuel, known.length < fuel →
      ∃ discovery, fixtureCatalog parser serve delete fuel url version server = some discovery) ∧
    ∀ fuel discovery, fixtureCatalog parser serve delete fuel url version server = some discovery →
      ∃ turns, Conversation parser url version turns discovery :=
  ⟨fun _ hbounded _ hfuel => fixtureCatalog_ends hbounded hfuel server,
    fun _ _ hsome => fixtureCatalog_conversation hsome⟩

end Discover

end CfIntegration.Mcp.FixtureSession
