import CfIntegration.Mcp.Probe

/-! # Conversations of the probe

What the probe has sent after every run, whatever it met, and what it has been answered
when it succeeds.
-/

namespace CfIntegration.Mcp

open CfIntegration.Action Protocol

/-! ## Replies -/

/-- A reply to the request with an id. -/
structure Exchange.Answered (exchange : Exchange) (id : Value) (response : ProbeResponse)
    (result : Value) : Prop where
  reply : exchange.reply = .ok response
  status : response.status = 200
  message : ∃ message, response.message = some message ∧
    (message.get? "jsonrpc").bind Value.asStr = some "2.0" ∧ message.get? "id" = some id ∧
    message.get? "error" = none ∧ message.get? "result" = some result

/-- An accepted initialization, with the session and the version it settles. -/
def Exchange.Negotiates (exchange : Exchange) (sessionId version : String) : Prop :=
  methodOf exchange.request.payload = some "initialize" ∧
    ∃ response result,
      exchange.Answered (.number (.unsigned initializeId)) response result ∧
      response.sessionId = some sessionId ∧
      (result.get? "protocolVersion").bind Value.asStr = some version

/-- A reply that lists the tool. -/
def Exchange.Lists (exchange : Exchange) (name : String) : Prop :=
  methodOf exchange.request.payload = some "tools/list" ∧
    ∃ response result tools tool,
      exchange.Answered (.number (.unsigned toolsListId)) response result ∧
      (result.get? "tools").bind Value.asArray = some tools ∧ tool ∈ tools ∧
      (tool.get? "name").bind Value.asStr = some name

/-- The first authenticated request failed and the next one is the same again. -/
def Exchange.Retried (exchange : Exchange) (later : List Exchange) : Prop :=
  (methodOf exchange.request.payload = some "initialize" ∨
    methodOf exchange.request.payload = some "server/discover") ∧
  (∃ response, exchange.reply = .ok response ∧ response.status ≠ 200) ∧
  ∃ next rest, later = next :: rest ∧ next.request = exchange.request

section Conversation

variable (config : ProbeConfig)

/-- The tools of the configured catalog, or else of the list that was received. -/
def Offered (exchanges : List Exchange) (name : String) : Prop :=
  if config.toolNames = [] then ∃ exchange ∈ exchanges, exchange.Lists name
  else name ∈ config.toolNames

/-- A request that the probe may send after these exchanges. -/
structure Admissible (earlier : List Exchange) (request : ProbeRequest) : Prop where
  first : earlier = [] → request.bearerToken = none ∧ request.sessionId = none
  later : earlier ≠ [] → request.bearerToken = some config.bearerToken
  session : isStatelessProtocol config.protocolVersion = false → ∀ exchange ∈ earlier,
    ∀ sessionId version, exchange.Negotiates sessionId version →
      request.sessionId = some sessionId ∧ request.protocolVersion = some version
  negotiated : isStatelessProtocol config.protocolVersion = false →
    methodOf request.payload ≠ some "initialize" →
      ∃ exchange ∈ earlier, ∃ sessionId version, exchange.Negotiates sessionId version
  call : ∀ name, calledTool request.payload = some name → Offered config earlier name

/-- Each request was admissible when it was sent. -/
def Orderly (exchanges : List Exchange) : Prop :=
  ∀ earlier exchange later, exchanges = earlier ++ exchange :: later →
    Admissible config earlier exchange.request

/-- The replies that a successful run needs, up to the tool call. -/
structure Accepted (exchanges : List Exchange) : Prop where
  rejected : ∃ first rest response, exchanges = first :: rest ∧ first.reply = .ok response ∧
    (response.status = 401 ∨
      response.status = 403 ∧ isStatelessProtocol config.protocolVersion = false)
  answered : ∀ earlier exchange later, exchanges = earlier ++ exchange :: later → earlier ≠ [] →
    ∀ id, idOf exchange.request.payload = some id →
      (∃ response result, exchange.Answered id response result) ∨ exchange.Retried later
  notified : ∀ exchange ∈ exchanges, idOf exchange.request.payload = none →
    ∃ response, exchange.reply = .ok response ∧ response.status = 202 ∧ response.message = none
  marked : config.mode = .dataplane → ∀ exchange ∈ exchanges,
    ∃ response, exchange.reply = .ok response ∧ response.backendIdentity = .dataplane

/-- The replies of a successful run. -/
structure Verified (exchanges : List Exchange) : Prop extends Accepted config exchanges where
  initialized : isStatelessProtocol config.protocolVersion = false → ∃ exchange ∈ exchanges,
    methodOf exchange.request.payload = some "notifications/initialized"
  called : ∀ name, Offered config exchanges name → (toolCallArgs name).isSome = true →
    ∃ exchange ∈ exchanges, (calledTool exchange.request.payload).isSome = true
  result : ∀ exchange ∈ exchanges, (calledTool exchange.request.payload).isSome = true →
    ∃ response result, exchange.Answered (.number (.unsigned toolCallId)) response result ∧
      ((result.get? "content").bind Value.asArray).isSome = true ∧
      (result.get? "isError" = none ∨ result.get? "isError" = some (.bool false))

/-- What holds of a run, whatever its outcome. -/
def Conducted (result : Except ProbeError Unit) (state : ProbeState) : Prop :=
  Orderly config state.exchanges ∧ (result = .ok () → Verified config state.exchanges)

end Conversation

/-- A result is that of a successful answer with the request's identifier. -/
theorem resultOf_eq_ok {step : String} {response : ProbeResponse} {id : UInt64} {result : Value}
    (hresult : resultOf step response id = .ok result) :
    response.status = 200 ∧ ∃ message, response.message = some message ∧
      (message.get? "jsonrpc").bind Value.asStr = some "2.0" ∧
      message.get? "id" = some (.number (.unsigned id)) ∧ message.get? "error" = none ∧
      message.get? "result" = some result := by
  unfold resultOf at hresult
  split at hresult
  · cases hresult
  next hstatus =>
    split at hresult
    · cases hresult
    next message hmessage =>
      split at hresult
      · cases hresult
      split at hresult
      · cases hresult
      next hversion =>
        split at hresult
        · cases hresult
        next hid =>
          split at hresult
          · cases hresult
          next herror =>
            split at hresult
            next entries hentries =>
              cases hresult
              refine ⟨not_not.mp hstatus, message, hmessage, not_not.mp hversion, ?_,
                by simpa using herror, hentries⟩
              obtain ⟨found, hfound, hnumber⟩ := Option.bind_eq_some_iff.mp (not_not.mp hid)
              rw [hfound]
              unfold Value.asU64 at hnumber
              split at hnumber <;> cases hnumber
              rfl
            · cases hresult

theorem Exchange.answered_of_resultOf {exchange : Exchange} {step : String}
    {response : ProbeResponse} {id : UInt64} {result : Value}
    (hreply : exchange.reply = .ok response) (hresult : resultOf step response id = .ok result) :
    exchange.Answered (.number (.unsigned id)) response result :=
  ⟨hreply, (resultOf_eq_ok hresult).1, (resultOf_eq_ok hresult).2⟩

/-- A reply is answered in one way. -/
theorem Exchange.Answered.unique {exchange : Exchange} {id other : Value}
    {response otherResponse : ProbeResponse} {result otherResult : Value}
    (hanswered : exchange.Answered id response result)
    (hother : exchange.Answered other otherResponse otherResult) :
    response = otherResponse ∧ result = otherResult := by
  obtain rfl : response = otherResponse :=
    Except.ok.inj (hanswered.reply.symm.trans hother.reply)
  obtain ⟨message, hmessage, _, _, _, hresult⟩ := hanswered.message
  obtain ⟨otherMessage, hotherMessage, _, _, _, hotherResult⟩ := hother.message
  obtain rfl : message = otherMessage := Option.some.inj (hmessage.symm.trans hotherMessage)
  exact ⟨rfl, Option.some.inj (hresult.symm.trans hotherResult)⟩

/-- An exchange negotiates one session only. -/
theorem Exchange.Negotiates.unique {exchange : Exchange}
    {sessionId other version otherVersion : String}
    (hnegotiates : exchange.Negotiates sessionId version)
    (hother : exchange.Negotiates other otherVersion) :
    sessionId = other ∧ version = otherVersion := by
  obtain ⟨_, response, result, hanswered, hsession, hversion⟩ := hnegotiates
  obtain ⟨_, otherResponse, otherResult, hotherAnswered, hotherSession, hotherVersion⟩ := hother
  obtain ⟨rfl, rfl⟩ := hanswered.unique hotherAnswered
  exact ⟨Option.some.inj (hsession.symm.trans hotherSession),
    Option.some.inj (hversion.symm.trans hotherVersion)⟩

theorem Exchange.Negotiates.status {exchange : Exchange} {sessionId version : String}
    (hnegotiates : exchange.Negotiates sessionId version) {response : ProbeResponse}
    (hreply : exchange.reply = .ok response) : response.status = 200 := by
  obtain ⟨_, answered, _, hanswered, _⟩ := hnegotiates
  obtain rfl : response = answered := Except.ok.inj (hreply.symm.trans hanswered.reply)
  exact hanswered.status

/-! ## Longer conversations -/

theorem split_concat {α : Type} {values earlier later : List α} {last value : α}
    (hsplit : values ++ [last] = earlier ++ value :: later) :
    (∃ rest, later = rest ++ [last] ∧ values = earlier ++ value :: rest) ∨
      later = [] ∧ earlier = values ∧ value = last := by
  rcases later.eq_nil_or_concat with rfl | ⟨rest, other, rfl⟩
  · obtain ⟨hearlier, hlast⟩ := List.append_inj' hsplit rfl
    exact .inr ⟨rfl, hearlier.symm, (List.singleton_inj.mp hlast).symm⟩
  · rw [List.concat_eq_append, ← List.cons_append, ← List.append_assoc] at hsplit
    obtain ⟨hvalues, hlast⟩ := List.append_inj' hsplit rfl
    rw [List.concat_eq_append, List.singleton_inj.mp hlast]
    exact .inl ⟨rest, rfl, hvalues⟩

section Longer

variable {config : ProbeConfig} {exchanges : List Exchange} {exchange : Exchange}

theorem orderly_nil : Orderly config [] := fun earlier exchange later hsplit => by
  cases earlier <;> cases hsplit

/-- An admissible request keeps the order. -/
theorem Orderly.concat (horderly : Orderly config exchanges)
    (hadmissible : Admissible config exchanges exchange.request) :
    Orderly config (exchanges ++ [exchange]) := fun earlier other later hsplit => by
  rcases split_concat hsplit with ⟨rest, _, hexchanges⟩ | ⟨_, rfl, rfl⟩
  · exact horderly earlier other rest hexchanges
  · exact hadmissible

theorem Exchange.Retried.append {later : List Exchange} (hretried : exchange.Retried later)
    (more : List Exchange) : exchange.Retried (later ++ more) := by
  obtain ⟨hmethod, hstatus, next, rest, rfl, hnext⟩ := hretried
  exact ⟨hmethod, hstatus, next, rest ++ more, rfl, hnext⟩

/-- An answered request keeps the conversation accepted. -/
theorem Accepted.concat (haccepted : Accepted config exchanges)
    (hanswered : ∀ id, idOf exchange.request.payload = some id →
      ∃ response result, exchange.Answered id response result)
    (hnotified : idOf exchange.request.payload = none →
      ∃ response, exchange.reply = .ok response ∧ response.status = 202 ∧ response.message = none)
    (hmarked : config.mode = .dataplane →
      ∃ response, exchange.reply = .ok response ∧ response.backendIdentity = .dataplane) :
    Accepted config (exchanges ++ [exchange]) where
  rejected := by
    obtain ⟨first, rest, response, rfl, hrejected⟩ := haccepted.rejected
    exact ⟨first, rest ++ [exchange], response, rfl, hrejected⟩
  answered earlier other later hsplit hearlier id hid := by
    rcases split_concat hsplit with ⟨rest, rfl, hexchanges⟩ | ⟨_, _, rfl⟩
    · exact (haccepted.answered earlier other rest hexchanges hearlier id hid).imp_right
        fun hretried => hretried.append [exchange]
    · exact .inl (hanswered id hid)
  notified := List.forall_mem_append.mpr
    ⟨haccepted.notified, List.forall_mem_singleton.mpr hnotified⟩
  marked hmode := List.forall_mem_append.mpr
    ⟨haccepted.marked hmode, List.forall_mem_singleton.mpr (hmarked hmode)⟩

end Longer

/-! ## What each step adds -/

section Steps

variable {world : ProbeWorld} {config : ProbeConfig} {state : ProbeState}

/-- Reading the clock sends nothing. -/
theorem readClock_ensures : Ensures (readClock world) state
    fun result next => (∃ elapsed, result = .ok elapsed) ∧ next.exchanges = state.exchanges :=
  ⟨⟨_, rfl⟩, rfl⟩

/-- Sleeping sends nothing. -/
theorem sleep_ensures (duration : Nat) : Ensures (sleep duration) state
    fun result next => (∃ value, result = .ok value) ∧ next.exchanges = state.exchanges :=
  ⟨⟨_, rfl⟩, rfl⟩

/-- Writing a line sends nothing. -/
theorem writeLine_ensures (line : OutputLine) (error : String) :
    Ensures (writeLine world line error) state fun _ next => next.exchanges = state.exchanges := by
  change (writeLine world line error state).2.exchanges = state.exchanges
  unfold writeLine
  split <;> rfl

theorem writeProbeResult_ensures (status : TestStatus) (step detail error : String) :
    Ensures (writeProbeResult world status step detail error) state
      fun _ next => next.exchanges = state.exchanges :=
  writeLine_ensures _ _

/-- The response of the exchange, with the marker where it is required. -/
def Exchange.Responds (config : ProbeConfig) (exchange : Exchange) (response : ProbeResponse) :
    Prop :=
  exchange.reply = .ok response ∧
    (config.mode = .dataplane → response.backendIdentity = .dataplane)

theorem postOutcome_eq_ok {step : String} {mode : GatewayTopology}
    {reply : Except PostError ProbeResponse} {response : ProbeResponse}
    (houtcome : postOutcome step mode reply = .ok response) :
    reply = .ok response ∧ (mode = .dataplane → response.backendIdentity = .dataplane) := by
  unfold postOutcome at houtcome
  split at houtcome
  next found =>
    split at houtcome
    next text herror =>
      split at houtcome
      · cases houtcome
      next hmode =>
        cases houtcome
        refine ⟨rfl, ?_⟩
        rintro rfl
        exact absurd rfl hmode
    next herror =>
      cases houtcome
      refine ⟨rfl, fun _ => ?_⟩
      cases hidentity : response.backendIdentity with
      | dataplane => rfl
      | _ =>
          rw [hidentity] at herror
          cases herror
  · cases houtcome
  · cases houtcome

/-- A post adds one exchange. -/
theorem postWithTimeout_ensures (request : ProbeRequest) (timeout : Nat) (step : String) :
    Ensures (postWithTimeout world request timeout step config.mode) state fun result next =>
      ∃ exchange : Exchange, exchange.request = request ∧
        next.exchanges = state.exchanges ++ [exchange] ∧
        ∀ response, result = .ok response → exchange.Responds config response :=
  ⟨⟨request, world.post state.exchanges request timeout⟩, rfl, rfl, fun _ => postOutcome_eq_ok⟩

/-- An attempt that the probe does not settle for. -/
def Attempted (config : ProbeConfig) (request : ProbeRequest) (exchange : Exchange) : Prop :=
  exchange.request = request ∧
    ∃ response, exchange.Responds config response ∧ response.status ≠ 200

theorem attemptTimeout_ensures : Ensures (attemptTimeout world config) state
    fun result next => (∃ timeout, result = .ok timeout) ∧ next.exchanges = state.exchanges := by
  unfold attemptTimeout
  split
  · exact ⟨⟨_, rfl⟩, rfl⟩
  · exact readClock_ensures.bind (fun _ _ hread => ⟨⟨_, rfl⟩, hread.2⟩)
      fun _ _ hread => absurd hread.1 nofun

/-- The same request again and again; only the last reply is looked at. -/
theorem authenticate_ensures (request : ProbeRequest) (step : String) (attempts : Nat) :
    Ensures (authenticate world config request step attempts) state fun result next =>
      ∃ (retried : List Exchange) (last : Option Exchange),
        next.exchanges = state.exchanges ++ retried ++ last.toList ∧
        (∀ exchange ∈ retried, Attempted config request exchange) ∧
        (∀ exchange ∈ last, exchange.request = request) ∧
        ∀ response, result = .ok response →
          ∃ exchange, last = some exchange ∧ exchange.Responds config response := by
  induction attempts generalizing state with
  | zero =>
      refine ⟨[], none, ?_, nofun, nofun, nofun⟩
      rw [List.append_nil, Option.toList_none, List.append_nil]
      rfl
  | succ attempts ih =>
      refine attemptTimeout_ensures.bind (fun timeout ready hready => ?_)
        fun _ _ hready => absurd hready.1 nofun
      refine (postWithTimeout_ensures request timeout step).bind (fun response sent hsent => ?_)
        fun error sent hsent => ?_
      · obtain ⟨exchange, hrequest, hexchanges, hresponds⟩ := hsent
        rw [hready.2] at hexchanges
        have hresponds := hresponds response rfl
        -- Wherever the loop stops, this attempt was the last one.
        have hsettled : ∀ next : ProbeState, next.exchanges = sent.exchanges →
            ∃ (retried : List Exchange) (last : Option Exchange),
              next.exchanges = state.exchanges ++ retried ++ last.toList ∧
              (∀ exchange ∈ retried, Attempted config request exchange) ∧
              (∀ exchange ∈ last, exchange.request = request) ∧
              ∀ other, Except.ok (ε := ProbeError) response = .ok other →
                ∃ exchange, last = some exchange ∧ exchange.Responds config other := by
          intro next hnext
          refine ⟨[], some exchange, ?_, nofun, fun other hother => ?_, fun other hother => ?_⟩
          · rw [hnext, hexchanges, List.append_nil, Option.toList_some]
          · cases hother
            exact hrequest
          · cases hother
            exact ⟨exchange, rfl, hresponds⟩
        split
        · exact hsettled _ rfl
        next hstatus =>
          refine readClock_ensures.bind (fun _ first hfirst => ?_)
            fun _ _ hfirst => absurd hfirst.1 nofun
          split
          · exact hsettled _ hfirst.2
          refine readClock_ensures.bind (fun _ second hsecond => ?_)
            fun _ _ hsecond => absurd hsecond.1 nofun
          have hsecond := hsecond.2.trans hfirst.2
          dsimp only
          split
          · exact hsettled _ hsecond
          refine (sleep_ensures _).bind (fun _ slept hslept => ?_)
            fun _ _ hslept => absurd hslept.1 nofun
          refine readClock_ensures.bind (fun _ third hthird => ?_)
            fun _ _ hthird => absurd hthird.1 nofun
          have hthird := (hthird.2.trans hslept.2).trans hsecond
          split
          · exact hsettled _ hthird
          refine ih.mono fun result next hnext => ?_
          obtain ⟨retried, last, hnext, hretried, hlast, hresult⟩ := hnext
          refine ⟨exchange :: retried, last, ?_, ?_, hlast, hresult⟩
          · rw [hnext, hthird, hexchanges, List.append_assoc state.exchanges,
              List.singleton_append]
          · rw [not_or] at hstatus
            exact List.forall_mem_cons.mpr
              ⟨⟨hrequest, response, hresponds, hstatus.1⟩, hretried⟩
      · obtain ⟨exchange, hrequest, hexchanges, -⟩ := hsent
        rw [hready.2] at hexchanges
        refine ⟨[], some exchange, ?_, nofun, fun other hother => ?_, nofun⟩
        · rw [hexchanges, List.append_nil, Option.toList_some]
        · cases hother
          exact hrequest

/-! ## The tools -/

theorem toolName_eq_some {tool : Value} {name : String} (hname : toolName tool = some name) :
    (tool.get? "name").bind Value.asStr = some name :=
  (Option.filter_eq_some_iff.mp hname).1

theorem listedToolNames_ensures {exchange : Exchange} {response : ProbeResponse}
    (hreply : exchange.reply = .ok response)
    (hmethod : methodOf exchange.request.payload = some "tools/list") :
    Ensures (listedToolNames world response) state fun result next =>
      next.exchanges = state.exchanges ∧ ∀ names, result = .ok names →
        (∃ answered, exchange.Answered (.number (.unsigned toolsListId)) response answered) ∧
        ∀ name, exchange.Lists name ↔ name ∈ names := by
  refine Ensures.ofExcept (fun answered hanswered => ?_) fun _ _ => ⟨rfl, nofun⟩
  have hexchange := Exchange.answered_of_resultOf hreply hanswered
  split
  · exact ⟨rfl, nofun⟩
  · exact ⟨rfl, nofun⟩
  next tools _ htools =>
    refine Ensures.ofExcept (fun names hnames => ?_) fun _ _ => ⟨rfl, nofun⟩
    have hrelated := except_mapM_eq_ok.mp hnames
    refine (writeProbeResult_ensures _ _ _ _).bind (fun _ next hnext => ⟨hnext, ?_⟩)
      fun _ _ hnext => ⟨hnext, nofun⟩
    rintro _ ⟨⟩
    refine ⟨⟨answered, hexchange⟩, fun name => ⟨?_, fun hname => ?_⟩⟩
    · rintro ⟨_, otherResponse, otherResult, otherTools, tool, hother, hotherTools, htool, hname⟩
      obtain ⟨rfl, rfl⟩ := hexchange.unique hother
      obtain rfl : tools = otherTools := Option.some.inj (htools.symm.trans hotherTools)
      obtain ⟨found, hfound, htoolName⟩ := forall₂_mem_left hrelated htool
      have hfoundName := toolName_eq_some (okOr_eq_ok.mp htoolName)
      rwa [Option.some.inj (hname.symm.trans hfoundName)]
    · obtain ⟨tool, htool, htoolName⟩ := forall₂_mem_right hrelated hname
      exact ⟨hmethod, response, answered, tools, tool, hexchange, htools, htool,
        toolName_eq_some (okOr_eq_ok.mp htoolName)⟩

/-- The requests that both conversations make of their tools. -/
structure Sends (config : ProbeConfig) (send : String → Value → UInt64 → ProbeRequest) :
    Prop where
  bearerToken : ∀ method params id, (send method params id).bearerToken = some config.bearerToken
  method : ∀ method params id, methodOf (send method params id).payload = some method
  id : ∀ method params id, idOf (send method params id).payload = some (.number (.unsigned id))
  call : ∀ name arguments id,
    calledTool (send "tools/call" (toolCallParams name arguments) id).payload = some name

/-- A conversation that is ready for its tools. -/
structure Ready (config : ProbeConfig) (send : String → Value → UInt64 → ProbeRequest)
    (exchanges : List Exchange) : Prop where
  orderly : Orderly config exchanges
  accepted : Accepted config exchanges
  initialized : isStatelessProtocol config.protocolVersion = false → ∃ exchange ∈ exchanges,
    methodOf exchange.request.payload = some "notifications/initialized"
  unlisted : ∀ exchange ∈ exchanges, methodOf exchange.request.payload ≠ some "tools/list"
  uncalled : ∀ exchange ∈ exchanges, calledTool exchange.request.payload = none
  session : isStatelessProtocol config.protocolVersion = false → ∃ sessionId version,
    (∃ exchange ∈ exchanges, exchange.Negotiates sessionId version) ∧
    (∀ exchange ∈ exchanges, ∀ other otherVersion, exchange.Negotiates other otherVersion →
      other = sessionId ∧ otherVersion = version) ∧
    ∀ method params id, (send method params id).sessionId = some sessionId ∧
      (send method params id).protocolVersion = some version

variable {send : String → Value → UInt64 → ProbeRequest} {exchanges : List Exchange}

theorem Accepted.ne_nil (haccepted : Accepted config exchanges) : exchanges ≠ [] := by
  obtain ⟨first, rest, _, rfl, _⟩ := haccepted.rejected
  exact List.cons_ne_nil _ _

/-- Tool requests are admissible once the conversation is ready, and stay so. -/
theorem Ready.admissible (hready : Ready config send exchanges) (hsends : Sends config send)
    (more : List Exchange)
    (hmore : ∀ exchange ∈ more, methodOf exchange.request.payload ≠ some "initialize")
    (method : String) (params : Value) (id : UInt64)
    (hcall : ∀ name, calledTool (send method params id).payload = some name →
      Offered config (exchanges ++ more) name) :
    Admissible config (exchanges ++ more) (send method params id) where
  first hempty := absurd (List.append_eq_nil_iff.mp hempty).1 hready.accepted.ne_nil
  later _ := hsends.bearerToken method params id
  session hlegacy exchange hexchange sessionId version hnegotiates := by
    obtain ⟨_, _, _, hunique, hsend⟩ := hready.session hlegacy
    rcases List.mem_append.mp hexchange with hexchange | hexchange
    · obtain ⟨rfl, rfl⟩ := hunique exchange hexchange sessionId version hnegotiates
      exact hsend method params id
    · exact absurd hnegotiates.1 (hmore exchange hexchange)
  negotiated hlegacy _ := by
    obtain ⟨sessionId, version, ⟨exchange, hexchange, hnegotiates⟩, _⟩ := hready.session hlegacy
    exact ⟨exchange, List.mem_append_left _ hexchange, sessionId, version, hnegotiates⟩
  call := hcall

/-- What is known once the names of the tools are. -/
def Catalogued (config : ProbeConfig) (exchanges : List Exchange)
    (result : Except ProbeError (List String)) (state : ProbeState) : Prop :=
  Orderly config state.exchanges ∧ ∀ names, result = .ok names →
    Accepted config state.exchanges ∧
    (∀ name, Offered config state.exchanges name ↔ name ∈ names) ∧
    ∃ more, state.exchanges = exchanges ++ more ∧
      ∀ exchange ∈ more, methodOf exchange.request.payload = some "tools/list"

/-- The names offered are those of the listing on record. -/
theorem offeredToolNames_ensures (hready : Ready config send state.exchanges)
    (hsends : Sends config send) :
    Ensures (offeredToolNames world config send) state (Catalogued config state.exchanges) := by
  unfold offeredToolNames
  split
  next hempty =>
    refine (postWithTimeout_ensures _ _ _).bind (fun response sent hsent => ?_)
      fun error sent hsent => ?_
    all_goals
      obtain ⟨exchange, hrequest, hexchanges, hresponds⟩ := hsent
      -- No tools are configured, so the server is asked for its list.
      have hmethod : methodOf exchange.request.payload = some "tools/list" := by
        rw [hrequest, hsends.method]
      have horderly : Orderly config sent.exchanges := by
        rw [hexchanges]
        refine hready.orderly.concat ?_
        have hadmissible :=
          hready.admissible hsends [] nofun "tools/list" (.object []) toolsListId ?_
        · rwa [List.append_nil, ← hrequest] at hadmissible
        · rw [← hrequest, calledTool_of_method hmethod (by decide)]
          nofun
    · obtain ⟨hreply, hmarked⟩ := hresponds response rfl
      refine (listedToolNames_ensures hreply hmethod).mono fun result next hnext => ?_
      obtain ⟨hsame, hlisted⟩ := hnext
      unfold Catalogued
      rw [hsame]
      refine ⟨horderly, fun names hnames => ?_⟩
      obtain ⟨⟨answered, hanswered⟩, hlists⟩ := hlisted names hnames
      rw [hexchanges]
      refine ⟨?_, fun name => ?_, [exchange], rfl, List.forall_mem_singleton.mpr hmethod⟩
      · refine hready.accepted.concat (fun id hid => ?_) (fun hid => ?_)
          fun hmode => ⟨response, hreply, hmarked hmode⟩
        · rw [hrequest, hsends.id] at hid
          cases hid
          exact ⟨response, answered, hanswered⟩
        · rw [hrequest, hsends.id] at hid
          cases hid
      · rw [Offered, if_pos hempty, ← hlists name]
        constructor
        · rintro ⟨other, hother, hname⟩
          rcases List.mem_append.mp hother with hother | hother
          · exact absurd hname.1 (hready.unlisted other hother)
          · rwa [List.mem_singleton.mp hother] at hname
        · exact fun hname => ⟨exchange, List.mem_append_right _ List.mem_cons_self, hname⟩
    · exact ⟨horderly, nofun⟩
  next hcatalog =>
    refine (writeProbeResult_ensures _ _ _ _).bind (fun _ next hnext => ?_) fun _ next hnext => ?_
    -- The configured names are taken without a request.
    · change Catalogued config state.exchanges (.ok config.toolNames) next
      unfold Catalogued
      rw [hnext]
      refine ⟨hready.orderly, ?_⟩
      rintro _ ⟨⟩
      refine ⟨hready.accepted, fun name => ?_, [], (List.append_nil _).symm, nofun⟩
      rw [Offered, if_neg hcatalog]
    · unfold Catalogued
      rw [hnext]
      exact ⟨hready.orderly, nofun⟩

/-- A tool that is called was offered. -/
theorem callable_eq_some {names : List String} {name : String} {arguments : Value}
    (hcallable : callable names = some (name, arguments)) : name ∈ names := by
  obtain ⟨found, hfound, harguments⟩ := List.exists_of_findSome?_eq_some hcallable
  obtain ⟨_, _, hpair⟩ := Option.map_eq_some_iff.mp harguments
  cases hpair
  exact hfound

/-- Without a callable tool there is none among those offered. -/
theorem callable_eq_none {names : List String} (hcallable : callable names = none) {name : String}
    (hname : name ∈ names) : toolCallArgs name = none :=
  Option.map_eq_none_iff.mp (List.findSome?_eq_none_iff.mp hcallable name hname)

/-- The result of a tool call that a conversation accepts. -/
def CleanResult (result : Value) : Prop :=
  ((result.get? "content").bind Value.asArray).isSome = true ∧
    (result.get? "isError" = none ∨ result.get? "isError" = some (.bool false))

/-- A run of the tools conducts the rest of the conversation. -/
theorem runTools_ensures {checkResult : Value → Except ProbeError Unit}
    (hready : Ready config send state.exchanges) (hsends : Sends config send)
    (hcheck : ∀ result, checkResult result = .ok () → CleanResult result) :
    Ensures (runTools world config send checkResult) state (Conducted config) := by
  refine (offeredToolNames_ensures hready hsends).bind (fun names listed hlisted => ?_)
    fun _ _ hlisted => ⟨hlisted.1, nofun⟩
  obtain ⟨horderly, hlisted⟩ := hlisted
  obtain ⟨haccepted, hoffered, more, hexchanges, hmore⟩ := hlisted names rfl
  have hinitialized : isStatelessProtocol config.protocolVersion = false →
      ∃ exchange ∈ listed.exchanges,
        methodOf exchange.request.payload = some "notifications/initialized" := fun hlegacy => by
    obtain ⟨exchange, hexchange, hmethod⟩ := hready.initialized hlegacy
    exact ⟨exchange, hexchanges ▸ List.mem_append_left _ hexchange, hmethod⟩
  -- Up to here no tool has been called.
  have huncalled : ∀ exchange ∈ listed.exchanges,
      calledTool exchange.request.payload = none := fun exchange hexchange => by
    rw [hexchanges] at hexchange
    rcases List.mem_append.mp hexchange with hexchange | hexchange
    · exact hready.uncalled exchange hexchange
    · exact calledTool_of_method (hmore exchange hexchange) (by decide)
  split
  next hcallable =>
    refine (writeProbeResult_ensures _ _ _ _).mono fun result next hnext => ?_
    unfold Conducted
    rw [hnext]
    refine ⟨horderly, fun _ => ⟨haccepted, hinitialized, fun name hname hknown => ?_,
      fun exchange hexchange hcalled => ?_⟩⟩
    · rw [callable_eq_none hcallable ((hoffered name).mp hname)] at hknown
      cases hknown
    · rw [huncalled exchange hexchange] at hcalled
      cases hcalled
  next name arguments hcallable =>
    refine (postWithTimeout_ensures _ _ _).bind (fun response sent hsent => ?_)
      fun error sent hsent => ?_
    all_goals
      obtain ⟨exchange, hrequest, hsentExchanges, hresponds⟩ := hsent
      -- The call is of a tool that the server or the configuration offers.
      have horderlySent : Orderly config sent.exchanges := by
        rw [hsentExchanges]
        refine horderly.concat ?_
        rw [hexchanges, hrequest]
        refine hready.admissible hsends more (fun exchange hexchange => ?_) _ _ _
          fun called hcalled => ?_
        · rw [hmore exchange hexchange]
          decide
        · rw [hsends.call] at hcalled
          cases hcalled
          rw [← hexchanges]
          exact (hoffered name).mpr (callable_eq_some hcallable)
    · obtain ⟨hreply, hmarked⟩ := hresponds response rfl
      refine Ensures.ofExcept (fun callResult hresult => ?_) fun _ _ => ⟨horderlySent, nofun⟩
      refine Ensures.ofExcept (fun _ hclean => ?_) fun _ _ => ⟨horderlySent, nofun⟩
      refine (writeProbeResult_ensures _ _ _ _).mono fun result next hnext => ?_
      unfold Conducted
      rw [hnext]
      refine ⟨horderlySent, fun _ => ?_⟩
      -- The answer to the call is a result without errors.
      have hanswered := Exchange.answered_of_resultOf hreply hresult
      rw [hsentExchanges]
      refine ⟨haccepted.concat (fun id hid => ?_) (fun hid => ?_)
        fun hmode => ⟨response, hreply, hmarked hmode⟩, fun hlegacy => ?_, fun _ _ _ => ?_,
        fun other hother hcalled => ?_⟩
      · rw [hrequest, hsends.id] at hid
        cases hid
        exact ⟨response, callResult, hanswered⟩
      · rw [hrequest, hsends.id] at hid
        cases hid
      · obtain ⟨other, hother, hmethod⟩ := hinitialized hlegacy
        exact ⟨other, List.mem_append_left _ hother, hmethod⟩
      · refine ⟨exchange, List.mem_append_right _ List.mem_cons_self, ?_⟩
        rw [hrequest, hsends.call]
        rfl
      · rcases List.mem_append.mp hother with hother | hother
        · rw [huncalled other hother] at hcalled
          cases hcalled
        · rw [List.mem_singleton.mp hother]
          exact ⟨response, callResult, hanswered, hcheck callResult hclean⟩
    · exact ⟨horderlySent, nofun⟩

/-! ## The first requests -/

variable {request : ProbeRequest} {first : Exchange}

/-- The first request went out without token and was refused. -/
structure Refused (config : ProbeConfig) (request : ProbeRequest) (first : Exchange) : Prop where
  anonymous : first.request.bearerToken = none ∧ first.request.sessionId = none
  payload : first.request.payload = request.payload
  responds : ∃ response, first.Responds config response ∧ (response.status = 401 ∨
    response.status = 403 ∧ isStatelessProtocol config.protocolVersion = false)

/-- The first request with token, before anything is negotiated. -/
structure Introduces (config : ProbeConfig) (request : ProbeRequest) : Prop where
  bearerToken : request.bearerToken = some config.bearerToken
  method : methodOf request.payload = some "initialize" ∨
    methodOf request.payload = some "server/discover" ∧
      isStatelessProtocol config.protocolVersion = true
  id : idOf request.payload = some (.number (.unsigned initializeId))

/-- An introduction calls no tool. -/
theorem Introduces.calledTool (hintroduces : Introduces config request) :
    calledTool request.payload = none := by
  rcases hintroduces.method with hmethod | ⟨hmethod, _⟩
  · exact calledTool_of_method hmethod (by decide)
  · exact calledTool_of_method hmethod (by decide)

theorem Introduces.method_ne (hintroduces : Introduces config request) :
    methodOf request.payload ≠ some "tools/list" := by
  rcases hintroduces.method with hmethod | ⟨hmethod, _⟩ <;> rw [hmethod] <;> decide

/-- A refusal negotiates no session. -/
theorem Refused.not_negotiates (hrefused : Refused config request first)
    (sessionId version : String) :
    ¬ first.Negotiates sessionId version := fun hnegotiates => by
  obtain ⟨response, hresponds, hstatus⟩ := hrefused.responds
  have hsuccess := hnegotiates.status hresponds.1
  rcases hstatus with hstatus | ⟨hstatus, _⟩ <;> omega

theorem Attempted.not_negotiates {exchange : Exchange}
    (hattempted : Attempted config request exchange) (sessionId version : String) :
    ¬ exchange.Negotiates sessionId version := fun hnegotiates => by
  obtain ⟨_, response, hresponds, hstatus⟩ := hattempted
  exact hstatus (hnegotiates.status hresponds.1)

theorem Introduces.orderly_first (hintroduces : Introduces config request)
    (hanonymous : first.request.bearerToken = none ∧ first.request.sessionId = none)
    (hpayload : first.request.payload = request.payload) : Orderly config [first] := by
  have hcalled : Protocol.calledTool first.request.payload = none := by
    rw [hpayload, hintroduces.calledTool]
  refine @Orderly.concat _ [] first orderly_nil ⟨fun _ => hanonymous, fun hne => absurd rfl hne,
    fun _ => nofun, fun hlegacy hmethod => ?_, ?_⟩
  · rw [hpayload] at hmethod
    rcases hintroduces.method with hinitialize | ⟨_, hstateless⟩
    · exact absurd hinitialize hmethod
    · rw [hstateless] at hlegacy
      cases hlegacy
  · rw [hcalled]
    nofun

theorem Refused.accepted (hrefused : Refused config request first)
    (hintroduces : Introduces config request) : Accepted config [first] where
  rejected := by
    obtain ⟨response, hresponds, hstatus⟩ := hrefused.responds
    exact ⟨first, [], response, rfl, hresponds.1, hstatus⟩
  answered earlier exchange later hsplit hearlier := by
    obtain ⟨head, tail, rfl⟩ := List.exists_cons_of_ne_nil hearlier
    have hlength := congrArg List.length hsplit
    simp only [List.cons_append, List.length_cons, List.length_append, List.length_nil] at hlength
    omega
  notified := List.forall_mem_singleton.mpr fun hid => by
    rw [hrefused.payload, hintroduces.id] at hid
    cases hid
  marked hmode := List.forall_mem_singleton.mpr <| by
    obtain ⟨response, hresponds, _⟩ := hrefused.responds
    exact ⟨response, hresponds.1, hresponds.2 hmode⟩

/-- The first authenticated request may be sent as often as it fails. -/
theorem Introduces.admissible (hintroduces : Introduces config request)
    (hrefused : Refused config request first) {retried : List Exchange}
    (hretried : ∀ exchange ∈ retried, Attempted config request exchange) :
    Admissible config ([first] ++ retried) request where
  first := nofun
  later _ := hintroduces.bearerToken
  session _ exchange hexchange sessionId version hnegotiates := by
    rcases List.mem_cons.mp hexchange with rfl | hexchange
    · exact absurd hnegotiates (hrefused.not_negotiates sessionId version)
    · exact absurd hnegotiates ((hretried exchange hexchange).not_negotiates sessionId version)
  negotiated hlegacy hmethod := by
    rcases hintroduces.method with hinitialize | ⟨_, hstateless⟩
    · exact absurd hinitialize hmethod
    · rw [hstateless] at hlegacy
      cases hlegacy
  call := by
    rw [hintroduces.calledTool]
    nofun

theorem Introduces.orderly (hintroduces : Introduces config request)
    (hrefused : Refused config request first) {retried : List Exchange} {last : Option Exchange}
    (hretried : ∀ exchange ∈ retried, Attempted config request exchange)
    (hlast : ∀ exchange ∈ last, exchange.request = request) :
    Orderly config ([first] ++ retried ++ last.toList) := by
  have hattempts : Orderly config ([first] ++ retried) := by
    induction retried using List.reverseRecOn with
    | nil => exact hintroduces.orderly_first hrefused.anonymous hrefused.payload
    | append_singleton retried exchange ih =>
        rw [List.forall_mem_append, List.forall_mem_singleton] at hretried
        rw [← List.append_assoc]
        refine (ih hretried.1).concat ?_
        rw [hretried.2.1]
        exact hintroduces.admissible hrefused hretried.1
  cases last with
  | none => rwa [Option.toList_none, List.append_nil]
  | some exchange =>
      refine hattempts.concat ?_
      rw [hlast exchange rfl]
      exact hintroduces.admissible hrefused hretried

theorem Introduces.retried (hintroduces : Introduces config request) {exchange : Exchange}
    (hattempted : Attempted config request exchange) {later : List Exchange} {next : Exchange}
    (hnext : later.head? = some next) (hsame : next.request = request) :
    exchange.Retried later := by
  obtain ⟨hrequest, response, hresponds, hstatus⟩ := hattempted
  refine ⟨?_, ⟨response, hresponds.1, hstatus⟩, next, later.tail,
    (List.cons_head?_tail hnext).symm, hsame.trans hrequest.symm⟩
  rw [hrequest]
  exact hintroduces.method.imp_right And.left

theorem Refused.payload_attempts (hrefused : Refused config request first)
    {retried : List Exchange} {last : Exchange}
    (hretried : ∀ exchange ∈ retried, Attempted config request exchange)
    (hlast : last.request = request) :
    ∀ exchange ∈ [first] ++ retried ++ [last], exchange.request.payload = request.payload :=
  List.forall_mem_append.mpr ⟨List.forall_mem_cons.mpr ⟨hrefused.payload, fun exchange hexchange =>
    congrArg ProbeRequest.payload (hretried exchange hexchange).1⟩,
    List.forall_mem_singleton.mpr (congrArg ProbeRequest.payload hlast)⟩

/-- Only the last attempt negotiates. -/
theorem Refused.negotiates_attempts (hrefused : Refused config request first)
    {retried : List Exchange} {last : Exchange}
    (hretried : ∀ exchange ∈ retried, Attempted config request exchange)
    {sessionId version : String}
    (hnegotiates : last.Negotiates sessionId version) :
    ∀ exchange ∈ [first] ++ retried ++ [last], ∀ other otherVersion,
      exchange.Negotiates other otherVersion → other = sessionId ∧ otherVersion = version := by
  refine List.forall_mem_append.mpr ⟨List.forall_mem_cons.mpr ⟨?_, ?_⟩, ?_⟩
  · exact fun other otherVersion hother =>
      absurd hother (hrefused.not_negotiates other otherVersion)
  · exact fun exchange hexchange other otherVersion hother =>
      absurd hother ((hretried exchange hexchange).not_negotiates other otherVersion)
  · exact List.forall_mem_singleton.mpr fun other otherVersion hother => hother.unique hnegotiates

theorem Introduces.accepted (hintroduces : Introduces config request)
    (hrefused : Refused config request first) {retried : List Exchange} {last : Exchange}
    (hretried : ∀ exchange ∈ retried, Attempted config request exchange)
    (hlast : last.request = request) {response : ProbeResponse} {result : Value}
    (hresponds : last.Responds config response)
    (hanswered : last.Answered (.number (.unsigned initializeId)) response result) :
    Accepted config ([first] ++ retried ++ [last]) where
  rejected := by
    obtain ⟨refusal, hrefusal, hstatus⟩ := hrefused.responds
    exact ⟨first, retried ++ [last], refusal, rfl, hrefusal.1, hstatus⟩
  answered earlier exchange later hsplit hearlier id hid := by
    rcases split_concat hsplit with ⟨rest, rfl, hexchanges⟩ | ⟨_, _, rfl⟩
    · refine .inr ?_
      obtain ⟨head, tail, rfl⟩ := List.exists_cons_of_ne_nil hearlier
      rw [List.singleton_append, List.cons_append, List.cons.injEq] at hexchanges
      obtain ⟨-, rfl⟩ := hexchanges
      rw [List.forall_mem_append, List.forall_mem_cons] at hretried
      obtain ⟨-, hattempted, hrest⟩ := hretried
      cases rest with
      | nil => exact hintroduces.retried hattempted rfl hlast
      | cons next rest =>
          exact hintroduces.retried hattempted rfl (hrest next List.mem_cons_self).1
    · rw [hlast, hintroduces.id] at hid
      cases hid
      exact .inl ⟨response, result, hanswered⟩
  notified exchange hexchange hid := by
    rw [hrefused.payload_attempts hretried hlast exchange hexchange, hintroduces.id] at hid
    cases hid
  marked hmode exchange hexchange := by
    rcases List.mem_append.mp hexchange with hexchange | hexchange
    · rcases List.mem_cons.mp hexchange with rfl | hexchange
      · obtain ⟨refusal, hrefusal, _⟩ := hrefused.responds
        exact ⟨refusal, hrefusal.1, hrefusal.2 hmode⟩
      · obtain ⟨_, attempt, hattempt, _⟩ := hretried exchange hexchange
        exact ⟨attempt, hattempt.1, hattempt.2 hmode⟩
    · rw [List.mem_singleton.mp hexchange]
      exact ⟨response, hresponds.1, hresponds.2 hmode⟩

/-! ## The two conversations -/

/-- The conversation after the first authenticated request. -/
def Authenticated (config : ProbeConfig) (request : ProbeRequest) (first : Exchange)
    (result : Except ProbeError ProbeResponse) (state : ProbeState) : Prop :=
  Orderly config state.exchanges ∧ ∀ response, result = .ok response →
    ∃ (retried : List Exchange) (last : Exchange),
      state.exchanges = [first] ++ retried ++ [last] ∧
      (∀ exchange ∈ retried, Attempted config request exchange) ∧
      last.request = request ∧ last.Responds config response

theorem authenticate_authenticated (hintroduces : Introduces config request)
    (hrefused : Refused config request first) (hstate : state.exchanges = [first])
    (step : String) (attempts : Nat) :
    Ensures (authenticate world config request step attempts) state
      (Authenticated config request first) := by
  refine (authenticate_ensures request step attempts).mono fun result next hnext => ?_
  obtain ⟨retried, last, hexchanges, hretried, hlast, hresult⟩ := hnext
  rw [hstate] at hexchanges
  refine ⟨hexchanges ▸ hintroduces.orderly hrefused hretried hlast, fun response hok => ?_⟩
  obtain ⟨exchange, rfl, hresponds⟩ := hresult response hok
  exact ⟨retried, exchange, hexchanges, hretried, hlast exchange rfl, hresponds⟩

theorem negotiatedSession_eq_ok {response : ProbeResponse} {result : Value}
    {session : String × String} (hsession : negotiatedSession response result = .ok session) :
    response.sessionId = some session.1 ∧
      (result.get? "protocolVersion").bind Value.asStr = some session.2 := by
  unfold negotiatedSession at hsession
  obtain ⟨version, hversion, hsession⟩ := except_bind_eq_ok.mp hsession
  obtain ⟨sessionId, hsessionId, hpair⟩ := except_bind_eq_ok.mp hsession
  cases hpair
  exact ⟨(Option.filter_eq_some_iff.mp (okOr_eq_ok.mp hsessionId)).1,
    (Option.filter_eq_some_iff.mp (okOr_eq_ok.mp hversion)).1⟩

/-- A notification is accepted without a message. -/
theorem acceptedEmpty_eq_ok {step : String} {response : ProbeResponse}
    (haccepted : acceptedEmpty step response = .ok ()) :
    response.status = 202 ∧ response.message = none := by
  unfold acceptedEmpty at haccepted
  split at haccepted
  · cases haccepted
  next hstatus =>
    split at haccepted
    · cases haccepted
    next hmessage => exact ⟨not_not.mp hstatus, by simpa using hmessage⟩

theorem checkLegacyResult_eq_ok (result : Value) (hcheck : checkLegacyResult result = .ok ()) :
    CleanResult result := by
  unfold checkLegacyResult at hcheck
  split at hcheck
  next hcontent =>
    refine ⟨hcontent, ?_⟩
    split at hcheck
    next hnone => exact .inl hnone
    next hfalse => exact .inr hfalse
    · cases hcheck
    · cases hcheck
  · cases hcheck

theorem checkStatelessResult_eq_ok (result : Value)
    (hcheck : checkStatelessResult result = .ok ()) : CleanResult result := by
  unfold checkStatelessResult at hcheck
  split at hcheck
  next hcontent =>
    refine ⟨hcontent, ?_⟩
    split at hcheck
    next hnone => exact .inl hnone
    next hfalse => exact .inr hfalse
    · cases hcheck
  · cases hcheck

theorem sends_legacy (url : List Char) (session : String × String) :
    Sends config fun method params id => legacyRequest config url
      (jsonrpcWithId method (some params) (.number (.unsigned id))) (some session) where
  bearerToken _ _ _ := rfl
  method method params _ := methodOf_jsonrpcWithId method (some params) _
  id method params _ := idOf_jsonrpcWithId method (some params) _
  call _ _ _ := rfl

theorem sends_stateless (url : List Char) :
    Sends config fun method params id => statelessRequest config url
      (statelessJsonrpcWithId method (some params) (.number (.unsigned id))
        config.protocolVersion) (some config.bearerToken) where
  bearerToken _ _ _ := rfl
  method method _ _ := methodOf_jsonrpcWithId method _ _
  id method _ _ := idOf_jsonrpcWithId method _ _
  call _ _ _ := rfl

/-- A conversation with one negotiated session goes on in that session. -/
theorem runLegacySession_ensures (url : List Char) (session : String × String)
    (horderly : Orderly config state.exchanges) (haccepted : Accepted config state.exchanges)
    (hmethod : ∀ exchange ∈ state.exchanges,
      methodOf exchange.request.payload = some "initialize")
    (hnegotiated : ∃ exchange ∈ state.exchanges, exchange.Negotiates session.1 session.2)
    (hunique : ∀ exchange ∈ state.exchanges, ∀ sessionId version,
      exchange.Negotiates sessionId version → sessionId = session.1 ∧ version = session.2) :
    Ensures (runLegacySession world config url session) state (Conducted config) := by
  refine (postWithTimeout_ensures _ _ _).bind (fun response sent hsent => ?_)
    fun error sent hsent => ?_
  all_goals
    obtain ⟨exchange, hrequest, hexchanges, hresponds⟩ := hsent
    -- The first request of the session is the notification that it is initialized.
    have hnotification : methodOf exchange.request.payload = some "notifications/initialized" := by
      rw [hrequest]
      rfl
    have horderlySent : Orderly config sent.exchanges := by
      rw [hexchanges]
      refine horderly.concat ⟨fun hempty => absurd hempty haccepted.ne_nil, fun _ => ?_,
        fun _ other hother sessionId version hnegotiates => ?_, fun _ _ => ?_, ?_⟩
      · rw [hrequest]
        rfl
      · obtain ⟨rfl, rfl⟩ := hunique other hother sessionId version hnegotiates
        rw [hrequest]
        exact ⟨rfl, rfl⟩
      · obtain ⟨other, hother, hnegotiates⟩ := hnegotiated
        exact ⟨other, hother, session.1, session.2, hnegotiates⟩
      · rw [calledTool_of_method hnotification (by decide)]
        nofun
  · obtain ⟨hreply, hmarked⟩ := hresponds response rfl
    refine Ensures.ofExcept (fun _ hempty => ?_) fun _ _ => ⟨horderlySent, nofun⟩
    refine (writeProbeResult_ensures _ _ _ _).bind (fun _ next hnext => ?_) fun _ next hnext => ?_
    · rw [hexchanges] at hnext
      -- The server has taken the notification, so the session is ready for its tools.
      refine runTools_ensures ?_ (sends_legacy url session) checkLegacyResult_eq_ok
      rw [hnext]
      refine ⟨hexchanges ▸ horderlySent, ?_, fun _ => ?_, ?_, ?_, fun _ => ?_⟩
      · refine haccepted.concat (fun id hid => ?_) (fun _ => ?_)
          fun hmode => ⟨response, hreply, hmarked hmode⟩
        · rw [hrequest] at hid
          cases hid
        · exact ⟨response, hreply, acceptedEmpty_eq_ok hempty⟩
      · exact ⟨exchange, List.mem_append_right _ List.mem_cons_self, hnotification⟩
      · refine List.forall_mem_append.mpr ⟨fun other hother => ?_, ?_⟩
        · rw [hmethod other hother]
          decide
        · rw [List.forall_mem_singleton, hnotification]
          decide
      · exact List.forall_mem_append.mpr
          ⟨fun other hother => calledTool_of_method (hmethod other hother) (by decide),
            List.forall_mem_singleton.mpr (calledTool_of_method hnotification (by decide))⟩
      · obtain ⟨other, hother, hnegotiates⟩ := hnegotiated
        refine ⟨session.1, session.2, ⟨other, List.mem_append_left _ hother, hnegotiates⟩,
          List.forall_mem_append.mpr ⟨hunique, ?_⟩, fun _ _ _ => ⟨rfl, rfl⟩⟩
        refine List.forall_mem_singleton.mpr fun _ _ hother => ?_
        have hsame := hnotification.symm.trans hother.1
        exact absurd (Option.some.inj hsame) (by decide)
    · unfold Conducted
      rw [hnext]
      exact ⟨horderlySent, nofun⟩
  · exact ⟨horderlySent, nofun⟩

/-- The legacy probe keeps the conversation from its first request to its last. -/
theorem runLegacyProbe_ensures (url : List Char) (attempts : Nat)
    (hlegacy : isStatelessProtocol config.protocolVersion = false)
    (hstate : state.exchanges = []) :
    Ensures (runLegacyProbe world config url attempts) state (Conducted config) := by
  have hintroduces : Introduces config (legacyRequest config url
      (initializeWithIdAndVersion (.number (.unsigned initializeId)) config.protocolVersion)
      none) := ⟨rfl, .inl rfl, rfl⟩
  unfold runLegacyProbe
  dsimp only
  refine (postWithTimeout_ensures _ _ _).bind (fun response sent hsent => ?_)
    fun error sent hsent => ?_
  all_goals
    obtain ⟨first, hrequest, hexchanges, hresponds⟩ := hsent
    rw [hstate, List.nil_append] at hexchanges
    have horderly : Orderly config sent.exchanges := by
      rw [hexchanges]
      refine hintroduces.orderly_first ?_ ?_ <;> rw [hrequest]
      exacts [⟨rfl, rfl⟩, rfl]
  · split
    · exact ⟨horderly, fun hok => by cases hok⟩
    next hstatus =>
      -- The first request carries no token, and the server refuses it.
      have hrefused : Refused config (legacyRequest config url
          (initializeWithIdAndVersion (.number (.unsigned initializeId)) config.protocolVersion)
          none) first := by
        refine ⟨by rw [hrequest]; exact ⟨rfl, rfl⟩, by rw [hrequest]; rfl, response,
          hresponds response rfl, ?_⟩
        simp only [List.mem_cons, List.not_mem_nil, or_false, not_not] at hstatus
        exact hstatus.imp_right fun hforbidden => ⟨hforbidden, hlegacy⟩
      refine (writeProbeResult_ensures _ _ _ _).bind (fun _ next hnext => ?_)
        fun _ next hnext => by
          unfold Conducted
          rw [hnext]
          exact ⟨horderly, fun hok => by cases hok⟩
      refine (authenticate_authenticated hintroduces hrefused (hnext.trans hexchanges)
        "initialize" attempts).bind (fun authenticated tried htried => ?_)
        fun _ _ htried => ⟨htried.1, fun hok => by cases hok⟩
      obtain ⟨horderly, htried⟩ := htried
      obtain ⟨retried, last, htriedExchanges, hretried, hlast, hanswer⟩ := htried _ rfl
      refine Ensures.ofExcept (fun result hresult => ?_)
        fun _ _ => ⟨horderly, fun hok => by cases hok⟩
      refine Ensures.ofExcept (fun session hsession => ?_)
        fun _ _ => ⟨horderly, fun hok => by cases hok⟩
      have hanswered := Exchange.answered_of_resultOf hanswer.1 hresult
      have hsession := negotiatedSession_eq_ok hsession
      -- The last attempt with the token negotiates the session.
      have hnegotiates : last.Negotiates session.1 session.2 :=
        ⟨by rw [hlast]; rfl, authenticated, result, hanswered, hsession⟩
      refine (writeProbeResult_ensures _ _ _ _).bind (fun _ written hwritten => ?_)
        fun _ written hwritten => by
          unfold Conducted
          rw [hwritten]
          exact ⟨horderly, fun hok => by cases hok⟩
      rw [htriedExchanges] at hwritten
      refine runLegacySession_ensures url session ?_ ?_ ?_ ?_ ?_
      · rw [hwritten, ← htriedExchanges]
        exact horderly
      · rw [hwritten]
        exact hintroduces.accepted hrefused hretried hlast hanswer hanswered
      all_goals rw [hwritten]
      · intro exchange hexchange
        rw [hrefused.payload_attempts hretried hlast exchange hexchange]
        rfl
      · exact ⟨last, List.mem_append_right _ List.mem_cons_self, hnegotiates⟩
      · exact hrefused.negotiates_attempts hretried hnegotiates
  · exact ⟨horderly, fun hok => by cases hok⟩

/-- So does the stateless one. -/
theorem runStatelessProbe_ensures (url : List Char) (attempts : Nat)
    (hstateless : isStatelessProtocol config.protocolVersion = true)
    (hstate : state.exchanges = []) :
    Ensures (runStatelessProbe world config url attempts) state (Conducted config) := by
  have hintroduces : Introduces config (statelessRequest config url
      (statelessJsonrpcWithId "server/discover" none (.number (.unsigned initializeId))
        config.protocolVersion) (some config.bearerToken)) := ⟨rfl, .inr ⟨rfl, hstateless⟩, rfl⟩
  -- What only a session needs is no obligation here.
  have hlifecycle : ∀ {claim : Prop}, isStatelessProtocol config.protocolVersion = false →
      claim := fun hlegacy => by
    rw [hstateless] at hlegacy
    cases hlegacy
  unfold runStatelessProbe
  dsimp only
  refine (postWithTimeout_ensures _ _ _).bind (fun response sent hsent => ?_)
    fun error sent hsent => ?_
  all_goals
    obtain ⟨first, hrequest, hexchanges, hresponds⟩ := hsent
    rw [hstate, List.nil_append] at hexchanges
    have horderly : Orderly config sent.exchanges := by
      rw [hexchanges]
      refine hintroduces.orderly_first ?_ ?_ <;> rw [hrequest]
      exacts [⟨rfl, rfl⟩, rfl]
  · split
    · exact ⟨horderly, nofun⟩
    next hstatus =>
      have hrefused : Refused config (statelessRequest config url
          (statelessJsonrpcWithId "server/discover" none (.number (.unsigned initializeId))
            config.protocolVersion) (some config.bearerToken)) first :=
        ⟨by rw [hrequest]; exact ⟨rfl, rfl⟩, by rw [hrequest]; rfl, response,
          hresponds response rfl, .inl (not_not.mp hstatus)⟩
      refine (writeProbeResult_ensures _ _ _ _).bind (fun _ next hnext => ?_)
        fun _ next hnext => by unfold Conducted; rw [hnext]; exact ⟨horderly, nofun⟩
      refine (authenticate_authenticated hintroduces hrefused (hnext.trans hexchanges)
        "server_discover" attempts).bind (fun authenticated tried htried => ?_)
        fun _ _ htried => ⟨htried.1, nofun⟩
      obtain ⟨horderly, htried⟩ := htried
      obtain ⟨retried, last, htriedExchanges, hretried, hlast, hanswer⟩ := htried _ rfl
      refine Ensures.ofExcept (fun result hresult => ?_) fun _ _ => ⟨horderly, nofun⟩
      refine Ensures.ofExcept (fun _ _ => ?_) fun _ _ => ⟨horderly, nofun⟩
      have hanswered := Exchange.answered_of_resultOf hanswer.1 hresult
      refine (writeProbeResult_ensures _ _ _ _).bind (fun _ written hwritten => ?_)
        fun _ written hwritten => by unfold Conducted; rw [hwritten]; exact ⟨horderly, nofun⟩
      rw [htriedExchanges] at hwritten
      -- All attempts repeat the discovery request, which calls no tool.
      have hpayload := hrefused.payload_attempts hretried hlast
      refine runTools_ensures ?_ (sends_stateless url) checkStatelessResult_eq_ok
      rw [hwritten]
      refine ⟨htriedExchanges ▸ horderly, hintroduces.accepted hrefused hretried hlast hanswer
        hanswered, hlifecycle, fun exchange hexchange => ?_, fun exchange hexchange => ?_,
        hlifecycle⟩
      · rw [hpayload exchange hexchange]
        exact hintroduces.method_ne
      · rw [hpayload exchange hexchange]
        exact hintroduces.calledTool
  · exact ⟨horderly, nofun⟩

end Steps

def ProbeState.initial : ProbeState := ⟨[], [], 0, 0⟩

/-- Whatever the transport, the clock and the output do, each request of a run is admissible,
and a run that succeeds was answered as it has to be. -/
theorem runProbe_conducted (world : ProbeWorld) (parser : UrlParser) (sets : String → SegmentSet)
    (config : ProbeConfig) (attempts : Nat) :
    Ensures (runProbe world parser sets config attempts) .initial (Conducted config) := by
  refine Ensures.ofExcept (fun url _ => ?_) fun _ _ => ⟨orderly_nil, nofun⟩
  refine (writeLine_ensures _ _).bind (fun _ next hnext => ?_) fun _ next hnext => ?_
  · split
    next hstateless => exact runStatelessProbe_ensures url attempts hstateless hnext
    next hlegacy =>
      exact runLegacyProbe_ensures url attempts (Bool.eq_false_iff.mpr hlegacy) hnext
  · unfold Conducted
    rw [hnext]
    exact ⟨orderly_nil, nofun⟩

/-! ## A retried initialization -/

def catalogConfig : ProbeConfig where
  mode := .direct
  baseUrl := "http://127.0.0.1:8080/".toList
  serverId := "server".toList
  bearerToken := "token"
  configTimeout := 120 * 1000000000
  retryInterval := 1000000000
  requestTimeout := 30 * 1000000000
  protocolVersion := "2025-11-25"
  toolNames := ["unknown_tool"]

def initializeReply : Value :=
  .object [("jsonrpc", .string "2.0"), ("id", .number (.unsigned initializeId)),
    ("result", .object [("protocolVersion", .string "2025-11-25")])]

def replyWith (status : Nat) (sessionId : Option String) (message : Option Value) :
    Except PostError ProbeResponse :=
  .ok ⟨status, sessionId, message, .missing⟩

/-- The server is not ready for the first initialization. -/
def unreadyWorld : ProbeWorld where
  post exchanges _ _ :=
    match exchanges.length with
    | 0 => replyWith 401 none none
    | 1 => replyWith 503 none none
    | 2 => replyWith 200 (some "session") (some initializeReply)
    | _ => replyWith 202 none none
  elapsed readings slept := readings * 1000000 + slept
  writes _ _ := true

def retriedRun : Except ProbeError Unit × ProbeState :=
  (runProbe unreadyWorld loopbackParser (fun _ => specialPathSegment) catalogConfig 2).run .initial

/-- An authenticated request with an id, answered 503. -/
def isUnavailable (exchange : Exchange) : Bool :=
  exchange.request.bearerToken == some "token" && (idOf exchange.request.payload).isSome &&
    match exchange.reply with
    | .ok response => response.status == 503
    | .error _ => false

/-- A run succeeds although one of its replies has another status. -/
theorem runProbe_retries_initialize :
    retriedRun.1.isOk = true ∧ ∃ exchange ∈ retriedRun.2.exchanges, isUnavailable exchange = true :=
  ⟨by decide +kernel, List.any_eq_true.mp (by decide +kernel)⟩

end CfIntegration.Mcp
