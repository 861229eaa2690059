import CfIntegration.Foundation.Pagination
import CfIntegration.Mcp.Gateway

/-! # Listing the catalog of a fixture

The client of a fixture asks for one page of a list after the other. A page names the
cursor of the next one, and the server is not trusted to end.
-/

namespace CfIntegration.Mcp.Catalog

open Gateway (HeaderMap toStr mcpProtocolVersion mcpSessionId accept)
open Pagination (Next Page Source Follows Completes collect collect_ends collect_ok_iff)
open Protocol (isStatelessProtocol jsonrpcWithId withRequestMetadata insertEntry parseMcpBody)

structure FixtureClient where
  url : List Char
  version : String
  session : Option (List Char)
  requestId : UInt64
  deriving DecidableEq, Repr

structure HttpRequest where
  url : List Char
  headers : List (String × List Char)
  body : Value

/-- A reply; reading its text may fail. -/
structure HttpReply where
  status : Nat
  headers : HeaderMap
  text : Except String (List Char)

def HttpReply.isSuccess (reply : HttpReply) : Bool := 200 ≤ reply.status && reply.status < 300

inductive FixtureError where
  | send (method cause : String)
  | status (method : String) (status : Nat)
  | sessionHeader
  | body (cause : String)
  | noMessage (method : String)
  | unsuccessful (method : String)
  | noArray (method field : String)
  | cursor (method : String)
  deriving DecidableEq, Repr

/-- The text of an error, without its cause. -/
def FixtureError.message : FixtureError → String
  | .send method _ => s!"fixture {method} failed"
  | .status method code => s!"fixture {method} failed: HTTP {code}"
  | .sessionHeader => "failed to convert header to a str"
  | .body cause => cause
  | .noMessage method => s!"fixture {method} returned no message"
  | .unsuccessful method => s!"fixture {method} did not return a successful result"
  | .noArray method field => s!"fixture {method} has no {field} array"
  | .cursor method => s!"fixture {method} returned an invalid or repeated cursor"

/-- What is found under a key; `null` where there is nothing. -/
def index (value : Value) (key : String) : Value := (value.get? key).getD .null

def isNull : Value → Bool
  | .null => true
  | _ => false

def isObject (value : Value) : Bool := value.asObject.isSome

/-- The request with the number of the client. -/
def FixtureClient.request (client : FixtureClient) (method : String) (params : Value)
    (notification : Bool) : HttpRequest :=
  let modern := isStatelessProtocol client.version
  let params := if modern then withRequestMetadata (some params) client.version else params
  let body := jsonrpcWithId method (some params) (.number (.unsigned client.requestId))
  { url := client.url
    headers := [("accept", accept), ("content-type", "application/json".toList)] ++
      (if method ≠ "initialize" then [(mcpProtocolVersion, client.version.toList)] else []) ++
      (if modern then [("mcp-method", method.toList)] else []) ++
      (client.session.map fun session => (mcpSessionId, session)).toList
    body := if notification then
        .object ((body.asObject.getD []).filter fun entry => entry.1 != "id")
      else body }

/-- The message of a reply must answer the request. -/
def FixtureClient.accepts (client : FixtureClient) (message : Value) : Bool :=
  (index message "id").asU64 == some client.requestId && isNull (index message "error") &&
    isObject (index message "result")

def FixtureClient.readMessage (client : FixtureClient) (parser : JsonParser) (method : String)
    (reply : HttpReply) : Except FixtureError Value := do
  let contentType := ((reply.headers.get? "content-type").bind toStr).getD []
  let text ← reply.text.mapError .body
  let message ← (parseMcpBody parser text contentType).mapError .body
  match message with
  | none => .error (.noMessage method)
  | some message =>
      if client.accepts message then .ok (index message "result")
      else .error (.unsuccessful method)

/-- The session of a reply is kept, also where its message is refused. -/
def FixtureClient.receive (client : FixtureClient) (parser : JsonParser) (method : String)
    (notification : Bool) (reply : HttpReply) : Except FixtureError Value × FixtureClient :=
  if reply.isSuccess = false then (.error (.status method reply.status), client)
  else
    match reply.headers.get? mcpSessionId with
    | none =>
        (if notification then .ok .null else client.readMessage parser method reply, client)
    | some value =>
        match toStr value with
        | none => (.error .sessionHeader, client)
        | some session =>
            let client := { client with session := some session }
            (if notification then .ok .null else client.readMessage parser method reply, client)

section Server

-- A server is a state that answers requests; sending a request may fail.
variable {σ : Type} (parser : JsonParser) (serve : σ → HttpRequest → Except String HttpReply × σ)

def rpc (method : String) (params : Value) (notification : Bool) (client : FixtureClient)
    (server : σ) : Except FixtureError Value × FixtureClient × σ :=
  let client := { client with requestId := client.requestId + 1 }
  match serve server (client.request method params notification) with
  | (.error cause, server) => (.error (.send method cause), client, server)
  | (.ok reply, server) =>
      let (result, client) := client.receive parser method notification reply
      (result, client, server)

/-- What a page is after its items were moved out of it. -/
def withoutItems (page : Value) (field : String) : Value :=
  .object (insertEntry (page.asObject.getD []) (field, .array []))

def cursorParams (cursor : String) : Value := .object [("cursor", .string cursor)]

/-- The loop of `list`, with what it has collected so far. -/
def listFrom (method field : String) : Nat → FixtureClient → σ → Value → List Value →
    OrderedSet String → Option (Except FixtureError (List Value) × FixtureClient × σ)
  | 0, _, _, _, _, _ => none
  | fuel + 1, client, server, params, items, cursors =>
      match rpc parser serve method params false client server with
      | (.error error, client, server) => some (.error error, client, server)
      | (.ok page, client, server) =>
          match (index page field).asArray with
          | none => some (.error (.noArray method field), client, server)
          | some more =>
              let cursor := index (withoutItems page field) "nextCursor"
              if isNull cursor then some (.ok (items ++ more), client, server)
              else
                match cursor with
                | .string name =>
                    if name ∈ cursors then some (.error (.cursor method), client, server)
                    else listFrom method field fuel client server (cursorParams name)
                      (items ++ more) (cursors.insert name)
                | _ => some (.error (.cursor method), client, server)

def list (method field : String) (fuel : Nat) (client : FixtureClient) (server : σ) :
    Option (Except FixtureError (List Value) × FixtureClient × σ) :=
  listFrom parser serve method field fuel client server (.object []) [] .empty

/-- What a page says about the next one. -/
def nextOf (page : Value) : Next String :=
  match index page "nextCursor" with
  | .null => .done
  | .string name => .key name
  | _ => .invalid

def pageOf (method field : String) (page : Value) : Except FixtureError (Page String Value) :=
  match (index page field).asArray with
  | none => .error (.noArray method field)
  | some items => .ok ⟨items, nextOf page⟩

def paramsOf : Option String → Value
  | none => .object []
  | some cursor => cursorParams cursor

/-- The pages of a list, asked for by their cursors. -/
def pages (method field : String) :
    Source (FixtureClient × σ) FixtureError String Value := fun world cursor =>
  match rpc parser serve method (paramsOf cursor) false world.1 world.2 with
  | (.error error, world) => (.error error, world)
  | (.ok page, world) => (pageOf method field page, world)

theorem asArray_eq_some {value : Value} {items : List Value} :
    value.asArray = some items ↔ value = .array items := by
  cases value <;> simp [Value.asArray]

/-- The last entry of a key is the one that is looked up. -/
theorem lookup_insertEntry (entries : List (String × Value)) (key other : String)
    (value : Value) : (insertEntry entries (key, value)).lookup other =
      if other = key then some value else entries.lookup other := by
  induction entries with
  | nil =>
      by_cases hother : other = key
      · simp [insertEntry, hother]
      · simp [insertEntry, List.lookup_cons, beq_false_of_ne hother, hother]
  | cons entry entries ih =>
      simp only [insertEntry] at ih ⊢
      rcases entry with ⟨name, old⟩
      by_cases hname : name = key
      · rw [List.filter_cons_of_neg (by simp [hname]), ih]
        by_cases hother : other = key
        · rw [if_pos hother, if_pos hother]
        · rw [if_neg hother, if_neg hother, List.lookup_cons, hname, beq_false_of_ne hother]
      · rw [List.filter_cons_of_pos (by simp [hname]), List.cons_append, List.lookup_cons, ih,
          List.lookup_cons]
        by_cases hother : other = name
        · subst hother
          simp [hname]
        · simp [beq_false_of_ne hother]

/-- Moving the items out of a page leaves its cursor alone, or an array where the items
are taken for the cursor. -/
theorem index_withoutItems {page : Value} {field : String} {items : List Value}
    (hitems : (index page field).asArray = some items) :
    index (withoutItems page field) "nextCursor" =
      if field = "nextCursor" then .array [] else index page "nextCursor" := by
  cases page with
  | object entries =>
      change ((insertEntry entries (field, .array [])).lookup "nextCursor").getD .null = _
      rw [lookup_insertEntry]
      by_cases hfield : field = "nextCursor"
      · rw [if_pos hfield.symm, if_pos hfield]
        rfl
      · rw [if_neg (Ne.symm hfield), if_neg hfield]
        rfl
  | _ => cases hitems

/-- The loop collects the pages. -/
theorem listFrom_eq_collect (method field : String) (fuel : Nat) (client : FixtureClient)
    (server : σ) (cursor : Option String) (items : List Value) (cursors : OrderedSet String)
    (seen : List String) (hseen : ∀ name, name ∈ cursors ↔ name ∈ seen) :
    listFrom parser serve method field fuel client server (paramsOf cursor) items cursors =
      collect (pages parser serve method field) (.cursor method) fuel (client, server) cursor seen
        items := by
  induction fuel generalizing client server cursor items cursors seen with
  | zero => rfl
  | succ fuel ih =>
      rw [listFrom, collect, pages]
      rcases rpc parser serve method (paramsOf cursor) false client server with
        ⟨result, client, server⟩
      cases result with
      | error error => rfl
      | ok page =>
          simp only [pageOf]
          cases hitems : (index page field).asArray with
          | none => rfl
          | some more =>
              dsimp only
              rw [index_withoutItems hitems]
              by_cases hfield : field = "nextCursor"
              · rw [if_pos hfield, nextOf, ← hfield, asArray_eq_some.mp hitems]
                rfl
              rw [if_neg hfield, nextOf]
              cases index page "nextCursor" with
              | string name =>
                  simp only [isNull, Bool.false_eq_true, if_false]
                  by_cases hname : name ∈ cursors
                  · rw [if_pos hname, if_pos ((hseen name).mp hname)]
                  · rw [if_neg hname, if_neg fun hmem => hname ((hseen name).mpr hmem)]
                    exact ih client server (some name) _ _ _ fun other => by
                      rw [OrderedSet.mem_insert, hseen, List.mem_append, List.mem_singleton,
                        or_comm]
              | _ => rfl

/-- A successful reply with the number of the request; the result is the page. -/
structure HttpReply.Answers (reply : HttpReply) (client : FixtureClient) (page : Value) :
    Prop where
  success : reply.isSuccess = true
  session : ∀ value, reply.headers.get? mcpSessionId = some value → (toStr value).isSome
  message : ∃ text message, reply.text = .ok text ∧
    parseMcpBody parser text (((reply.headers.get? "content-type").bind toStr).getD []) =
      .ok (some message) ∧
    (index message "id").asU64 = some client.requestId ∧ index message "error" = .null ∧
    index message "result" = page
  object : isObject page = true

/-- The client as it numbers its next request. -/
def FixtureClient.numbered (client : FixtureClient) : FixtureClient :=
  { client with requestId := client.requestId + 1 }

def FixtureClient.withSession (client : FixtureClient) (headers : HeaderMap) : FixtureClient :=
  match (headers.get? mcpSessionId).bind toStr with
  | some session => { client with session := some session }
  | none => client

/-- The server answers the request for the page after a cursor. -/
def Serves (method : String) (world : FixtureClient × σ) (cursor : Option String) (page : Value)
    (after : FixtureClient × σ) : Prop :=
  ∃ reply, serve world.2 (world.1.numbered.request method (paramsOf cursor) false) =
      (.ok reply, after.2) ∧
    reply.Answers parser world.1.numbered page ∧
    after.1 = world.1.numbered.withSession reply.headers

/-- The batches of items that a server gives for the cursors of its own pages, the
cursors, and where the next page is asked for. -/
inductive CursorChain (method field : String) (start : FixtureClient × σ) :
    List (List Value) → List String → FixtureClient × σ → Option String → Prop where
  | start : CursorChain method field start [] [] start none
  | next {batches : List (List Value)} {cursors : List String} {world after : FixtureClient × σ}
      {cursor : Option String} {page : Value} {items : List Value} {name : String}
      (hchain : CursorChain method field start batches cursors world cursor)
      (hserves : Serves parser serve method world cursor page after)
      (hitems : index page field = .array items)
      (hcursor : index page "nextCursor" = .string name) :
      CursorChain method field start (batches ++ [items]) (cursors ++ [name]) after (some name)

/-- The chain reaches a page whose next cursor is null or missing, and no cursor of the
chain has come back before. -/
def ReachesEnd (method field : String) (start : FixtureClient × σ) (batches : List (List Value)) :
    Prop :=
  ∃ before cursors world cursor page items after,
    CursorChain parser serve method field start before cursors world cursor ∧
    Serves parser serve method world cursor page after ∧ index page field = .array items ∧
    index page "nextCursor" = .null ∧ cursors.Nodup ∧ batches = before ++ [items]

variable {parser serve}

theorem isNull_iff {value : Value} : isNull value = true ↔ value = .null := by
  cases value <;> simp [isNull]

/-- A client accepts the success that answers its own request. -/
theorem accepts_iff {client : FixtureClient} {message : Value} :
    client.accepts message = true ↔ (index message "id").asU64 = some client.requestId ∧
      index message "error" = .null ∧ isObject (index message "result") = true := by
  rw [FixtureClient.accepts, Bool.and_eq_true, Bool.and_eq_true, beq_iff_eq, isNull_iff, and_assoc]

theorem ite_error_eq_ok {ε α : Type} {condition : Prop} [Decidable condition] {value result : α}
    {error : ε} : (if condition then Except.ok value else Except.error error) = .ok result ↔
      condition ∧ value = result := by
  by_cases hcondition : condition <;> simp [hcondition]

/-- A reply is read as the result of its message. -/
theorem readMessage_eq_ok_iff {client : FixtureClient} {method : String} {reply : HttpReply}
    {page : Value} : client.readMessage parser method reply = .ok page ↔
      ∃ text message, reply.text = .ok text ∧
        parseMcpBody parser text (((reply.headers.get? "content-type").bind toStr).getD []) =
          .ok (some message) ∧
        client.accepts message = true ∧ index message "result" = page := by
  unfold FixtureClient.readMessage
  cases reply.text with
  | error cause => exact ⟨nofun, fun ⟨_, _, htext, _⟩ => nomatch htext⟩
  | ok text =>
      cases hparse : parseMcpBody parser text
        (((reply.headers.get? "content-type").bind toStr).getD []) with
      | error cause =>
          simp only [Except.mapError, bind, Except.bind, hparse]
          refine ⟨nofun, ?_⟩
          rintro ⟨other, message, htext, hother, -⟩
          cases htext
          rw [hparse] at hother
          cases hother
      | ok message =>
          simp only [Except.mapError, bind, Except.bind, hparse]
          cases message with
          | none =>
              refine ⟨nofun, ?_⟩
              rintro ⟨other, message, htext, hother, -⟩
              cases htext
              rw [hparse] at hother
              cases hother
          | some message =>
              constructor
              · intro hok
                obtain ⟨haccepts, hresult⟩ := ite_error_eq_ok.mp hok
                exact ⟨text, message, rfl, hparse, haccepts, hresult⟩
              · rintro ⟨other, answer, htext, hother, haccepts, rfl⟩
                cases htext
                rw [hparse] at hother
                cases hother
                exact if_pos haccepts

theorem readMessage_answers {client : FixtureClient} {method : String} {reply : HttpReply}
    {page : Value} (hsuccess : reply.isSuccess = true)
    (hsession : ∀ value, reply.headers.get? mcpSessionId = some value → (toStr value).isSome) :
    client.readMessage parser method reply = .ok page ↔ reply.Answers parser client page := by
  rw [readMessage_eq_ok_iff]
  constructor
  · rintro ⟨text, message, htext, hparse, haccepts, rfl⟩
    obtain ⟨hid, herror, hobject⟩ := accepts_iff.mp haccepts
    exact ⟨hsuccess, hsession, ⟨text, message, htext, hparse, hid, herror, rfl⟩, hobject⟩
  · rintro ⟨-, -, ⟨text, message, htext, hparse, hid, herror, rfl⟩, hobject⟩
    exact ⟨text, message, htext, hparse, accepts_iff.mpr ⟨hid, herror, hobject⟩, rfl⟩

theorem receive_eq_ok_iff {client after : FixtureClient} {method : String} {reply : HttpReply}
    {page : Value} : client.receive parser method false reply = (.ok page, after) ↔
      reply.Answers parser client page ∧ after = client.withSession reply.headers := by
  unfold FixtureClient.receive FixtureClient.withSession
  by_cases hsuccess : reply.isSuccess = true
  · rw [if_neg (by simp [hsuccess])]
    cases hheader : reply.headers.get? mcpSessionId with
    | none =>
        have hanswers := @readMessage_answers parser client method reply page hsuccess
          (by simp [hheader])
        simp only [Bool.false_eq_true, if_false, Option.bind_none, Prod.mk.injEq, hanswers]
        exact and_congr_right fun _ => eq_comm
    | some value =>
        simp only [Option.bind_some]
        cases hvalue : toStr value with
        | none =>
            simp only [Prod.mk.injEq, reduceCtorEq, false_and, false_iff, not_and]
            intro hanswers
            have hsome := hanswers.session value hheader
            rw [hvalue] at hsome
            cases hsome
        | some session =>
            have hanswers := @readMessage_answers parser { client with session := some session }
              method reply page hsuccess (by simp [hheader, hvalue])
            simp only [Bool.false_eq_true, if_false, Prod.mk.injEq, hanswers]
            -- The session is no part of what a reply must answer.
            exact and_congr ⟨fun h => ⟨h.1, h.2, h.3, h.4⟩, fun h => ⟨h.1, h.2, h.3, h.4⟩⟩ eq_comm
  · rw [if_pos (by simpa using hsuccess)]
    exact ⟨nofun, fun ⟨hanswers, _⟩ => absurd hanswers.success hsuccess⟩

/-- A call returns a page exactly where the server's reply is received as one. -/
theorem rpc_eq_ok_iff {method : String} {world after : FixtureClient × σ} {cursor : Option String}
    {page : Value} :
    rpc parser serve method (paramsOf cursor) false world.1 world.2 = (.ok page, after) ↔
      Serves parser serve method world cursor page after := by
  unfold rpc Serves
  change (match serve world.2 (world.1.numbered.request method (paramsOf cursor) false) with
    | (.error cause, server) => _
    | (.ok reply, server) => _) = _ ↔ _
  rcases serve world.2 (world.1.numbered.request method (paramsOf cursor) false) with
    ⟨result, server⟩
  cases result with
  | error cause => simp
  | ok reply =>
      obtain ⟨client, last⟩ := after
      have hreceive := @receive_eq_ok_iff parser world.1.numbered client method reply page
      change (match world.1.numbered.receive parser method false reply with
        | (result, client) => (result, client, server)) = _ ↔ _
      generalize world.1.numbered.receive parser method false reply = received at hreceive ⊢
      obtain ⟨result, received⟩ := received
      constructor
      · intro hok
        cases hok
        exact ⟨reply, rfl, hreceive.mp rfl⟩
      · rintro ⟨other, hother, hanswers⟩
        cases hother
        cases hreceive.mpr hanswers
        rfl

/-- What a page of the source is. -/
theorem pages_eq_ok_iff {method field : String} {world after : FixtureClient × σ}
    {cursor : Option String} {found : Page String Value} :
    pages parser serve method field world cursor = (.ok found, after) ↔
      ∃ page, Serves parser serve method world cursor page after ∧
        pageOf method field page = .ok found := by
  rw [pages]
  rcases hrpc : rpc parser serve method (paramsOf cursor) false world.1 world.2 with
    ⟨result, reached⟩
  constructor
  · intro hpages
    cases result with
    | error error => cases hpages
    | ok page =>
        obtain ⟨hpage, rfl⟩ := Prod.mk.inj hpages
        exact ⟨page, rpc_eq_ok_iff.mp hrpc, hpage⟩
  · rintro ⟨page, hserves, hpage⟩
    rw [rpc_eq_ok_iff.mpr hserves] at hrpc
    cases hrpc
    exact Prod.ext hpage rfl

/-- A page has the items of its field, and where to go on from. -/
theorem pageOf_eq_ok_iff {method field : String} {page : Value} {found : Page String Value} :
    pageOf method field page = .ok found ↔
      index page field = .array found.items ∧ found.next = nextOf page := by
  unfold pageOf
  obtain ⟨items, next⟩ := found
  cases hitems : (index page field).asArray with
  | none =>
      refine ⟨nofun, fun ⟨harray, _⟩ => ?_⟩
      rw [asArray_eq_some.mpr harray] at hitems
      cases hitems
  | some others =>
      rw [asArray_eq_some] at hitems
      simp only [hitems, Except.ok.injEq, Page.mk.injEq, Value.array.injEq]
      exact and_congr_right fun _ => eq_comm

theorem nextOf_eq_done {page : Value} : nextOf page = .done ↔ index page "nextCursor" = .null := by
  unfold nextOf
  cases index page "nextCursor" <;> simp

theorem nextOf_eq_key {page : Value} {name : String} :
    nextOf page = .key name ↔ index page "nextCursor" = .string name := by
  unfold nextOf
  cases index page "nextCursor" <;> simp

/-- The chains of cursors are what is followed in the source of the pages. -/
theorem follows_iff {method field : String} {start : FixtureClient × σ}
    {batches : List (List Value)} {cursors : List String} {world : FixtureClient × σ}
    {cursor : Option String} :
    CursorChain parser serve method field start batches cursors world cursor ↔
      ∃ found, Follows (pages parser serve method field) start none found cursors world cursor ∧
        batches = found.map Page.items := by
  constructor
  · intro hchain
    induction hchain with
    | start => exact ⟨[], .start, rfl⟩
    | @next batches cursors world after cursor page items name _ hserves hitems hcursor ih =>
        obtain ⟨found, hfollows, rfl⟩ := ih
        have hpage : pages parser serve method field world cursor =
            (.ok ⟨items, nextOf page⟩, after) :=
          pages_eq_ok_iff.mpr ⟨page, hserves, pageOf_eq_ok_iff.mpr ⟨hitems, rfl⟩⟩
        exact ⟨found ++ [⟨items, nextOf page⟩], hfollows.next hpage (nextOf_eq_key.mpr hcursor),
          by simp⟩
  · rintro ⟨found, hfollows, rfl⟩
    induction hfollows with
    | start => exact .start
    | next _ hpage hnext ih =>
        obtain ⟨page, hserves, hfound⟩ := pages_eq_ok_iff.mp hpage
        obtain ⟨hitems, hsame⟩ := pageOf_eq_ok_iff.mp hfound
        rw [List.map_append]
        exact ih.next hserves hitems (nextOf_eq_key.mp (hsame ▸ hnext))

/-- A listing that reaches its end does so page by page. -/
theorem reachesEnd_iff {method field : String} {start : FixtureClient × σ}
    {batches : List (List Value)} : ReachesEnd parser serve method field start batches ↔
      ∃ found final, Completes (pages parser serve method field) start none found final ∧
        batches = found.map Page.items := by
  constructor
  · rintro ⟨before, cursors, world, cursor, page, items, after, hchain, hserves, hitems, hcursor,
      hnodup, rfl⟩
    obtain ⟨found, hfollows, rfl⟩ := follows_iff.mp hchain
    have hpage : pages parser serve method field world cursor =
        (.ok ⟨items, nextOf page⟩, after) :=
      pages_eq_ok_iff.mpr ⟨page, hserves, pageOf_eq_ok_iff.mpr ⟨hitems, rfl⟩⟩
    exact ⟨found ++ [⟨items, nextOf page⟩], after,
      ⟨found, cursors, world, cursor, _, hfollows, hpage, nextOf_eq_done.mpr hcursor, hnodup, rfl⟩,
      by simp⟩
  · rintro ⟨_, final, ⟨before, cursors, world, cursor, last, hfollows, hpage, hdone, hnodup, rfl⟩,
      rfl⟩
    obtain ⟨page, hserves, hfound⟩ := pages_eq_ok_iff.mp hpage
    obtain ⟨hitems, hsame⟩ := pageOf_eq_ok_iff.mp hfound
    exact ⟨_, cursors, world, cursor, page, last.items, final,
      follows_iff.mpr ⟨before, hfollows, rfl⟩, hserves, hitems,
      nextOf_eq_done.mp (hsame ▸ hdone), hnodup, by simp⟩

variable (parser serve)

/-- Where the cursors that lead on are finitely many, the loop ends. It returns the items
of all pages, in order, exactly where the chain of cursors reaches an end before one of
them comes back. -/
theorem list_complete (method field : String) (client : FixtureClient) (server : σ) :
    (∀ known : List String, (∀ batches cursors world cursor,
        CursorChain parser serve method field (client, server) batches cursors world cursor →
          cursors ⊆ known) →
      ∃ outcome, ∀ fuel, known.length < fuel →
        list parser serve method field fuel client server = some outcome) ∧
    ∀ fuel outcome, list parser serve method field fuel client server = some outcome →
      (∀ items, outcome.1 = .ok items ↔ ∃ batches,
        ReachesEnd parser serve method field (client, server) batches ∧ items = batches.flatten) ∧
      ((¬ ∃ batches, ReachesEnd parser serve method field (client, server) batches) →
        ∃ error, outcome.1 = .error error) := by
  -- The listing is an instance of collecting pages by cursor.
  have hlist : ∀ fuel, list parser serve method field fuel client server =
      collect (pages parser serve method field) (.cursor method) fuel (client, server) none [] [] :=
    fun fuel => listFrom_eq_collect parser serve method field fuel client server none [] .empty []
      (by simp)
  simp only [hlist]
  constructor
  · intro known hknown
    exact collect_ends fun found cursors world cursor hfollows =>
      hknown _ cursors world cursor (follows_iff.mpr ⟨found, hfollows, rfl⟩)
  · intro fuel outcome hended
    have hok : ∀ items, outcome.1 = .ok items ↔ ∃ batches,
        ReachesEnd parser serve method field (client, server) batches ∧
          items = batches.flatten := by
      intro items
      rw [collect_ok_iff hended]
      simp only [reachesEnd_iff]
      constructor
      · rintro ⟨found, final, hcompletes, rfl⟩
        exact ⟨_, ⟨found, final, hcompletes, rfl⟩, List.flatMap_def⟩
      · rintro ⟨_, ⟨found, final, hcompletes, rfl⟩, rfl⟩
        exact ⟨found, final, hcompletes, List.flatMap_def.symm⟩
    refine ⟨hok, fun hnone => ?_⟩
    rcases outcome with ⟨result, final⟩
    cases result with
    | error error => exact ⟨error, rfl⟩
    | ok items =>
        obtain ⟨batches, hend, -⟩ := (hok items).mp rfl
        exact absurd ⟨batches, hend⟩ hnone

end Server

end CfIntegration.Mcp.Catalog
