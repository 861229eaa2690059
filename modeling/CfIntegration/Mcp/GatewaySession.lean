import CfIntegration.Foundation.Text
import CfIntegration.Mcp.Gateway

/-! # The session of the gateway client

Over any sequence of exchanges the stored session is the one that the last granting
exchange handed out. An exchange grants a session when it returns `Ok`, has a success
status and carries exactly one session header. Every other exchange leaves the session
as it was.
-/

namespace CfIntegration.Mcp.Gateway

section Session

variable (libraries : Libraries)

/-- A request to send and what the transport will make of it. -/
structure Turn where
  request : GatewayRequest
  execute : OutboundRequest → Except String Response

/-- The response that arrives in a turn, if any. -/
def Turn.response (turn : Turn) (client : GatewayClient) : Option Response :=
  ((client.buildRequest libraries turn.request).toOption.bind fun outbound =>
    (turn.execute outbound).toOption)

/-- What was observed of a turn. -/
structure Observed where
  response : Option Response
  result : Except GatewayFailure Exchange

def GatewayClient.take (client : GatewayClient) (turn : Turn) : Observed × GatewayClient :=
  let (result, next) := client.send libraries turn.request turn.execute
  (⟨turn.response libraries client, result⟩, next)

/-- The turns one after the other. -/
def GatewayClient.run : GatewayClient → List Turn → List Observed × GatewayClient
  | client, [] => ([], client)
  | client, turn :: turns =>
      let (observed, next) := client.take libraries turn
      let (others, last) := next.run turns
      (observed :: others, last)

/-- The session of an exchange that returned `Ok` with a success status and exactly one
session header. -/
def Observed.granted (observed : Observed) : Option (List Char) :=
  match observed.result, observed.response with
  | .ok _, some response =>
      match response.isSuccess, response.headers.getAll mcpSessionId with
      | true, [value] => some (value.map fun byte => Char.ofNat byte.toNat)
      | _, _ => none
  | _, _ => none

/-- The exchange failed, or its status is no success. -/
def Observed.Rejected (observed : Observed) : Prop :=
  ∀ exchange, observed.result = .ok exchange →
    ∀ response, observed.response = some response → response.isSuccess = false

/-- Nonempty and visible ASCII. -/
def ValidSession (session : List Char) : Prop :=
  session ≠ [] ∧ ∀ char ∈ session, 0x21 ≤ char.toNat ∧ char.toNat ≤ 0x7e

variable {libraries}

/-- A response has no session, or one that is valid. -/
theorem responseSession_ok_iff {headers : HeaderMap} {session : Option (List Char)} :
    responseSession headers = .ok session ↔
      (headers.getAll mcpSessionId = [] ∧ session = none) ∨
      ∃ value, headers.getAll mcpSessionId = [value] ∧ value ≠ [] ∧
        (∀ byte ∈ value, 0x21 ≤ byte ∧ byte ≤ 0x7e) ∧
        session = some (value.map fun byte => Char.ofNat byte.toNat) := by
  unfold responseSession
  rcases headers.getAll mcpSessionId with _ | ⟨value, _ | ⟨second, rest⟩⟩
  · simp [eq_comm]
  · by_cases hempty : value = []
    · simp [hempty]
    · by_cases hvisible : (value.all fun byte => 0x21 ≤ byte && byte ≤ 0x7e) = true
      · have hall : ∀ byte ∈ value, 0x21 ≤ byte ∧ byte ≤ 0x7e := by simpa using hvisible
        simp only [hempty, hvisible, if_false, if_true, Except.ok.injEq]
        constructor
        · rintro rfl
          exact .inr ⟨value, rfl, hempty, hall, rfl⟩
        · rintro (⟨hnil, _⟩ | ⟨_, heq, _, _, rfl⟩)
          · cases hnil
          · cases heq
            rfl
      · simp only [hempty, hvisible, if_false, Bool.false_eq_true, false_iff, not_or,
          reduceCtorEq]
        refine ⟨by simp, ?_⟩
        rintro ⟨_, heq, _, hall, _⟩
        cases heq
        exact hvisible (by simpa using hall)
  · simp

/-- A session that was accepted is the one header the response has. -/
theorem granted_of_ok {exchange : Exchange} {response : Response} {session : Option (List Char)}
    (hsession : responseSession response.headers = .ok session)
    (hsuccess : response.isSuccess = true) :
    Observed.granted ⟨some response, .ok exchange⟩ = session := by
  unfold Observed.granted
  rcases responseSession_ok_iff.mp hsession with ⟨hnone, rfl⟩ | ⟨value, hvalue, _, _, rfl⟩
  · simp [hsuccess, hnone]
  · simp [hsuccess, hvalue]

theorem granted_of_not_success {response : Response} (hstatus : response.isSuccess = false)
    (result : Except GatewayFailure Exchange) :
    Observed.granted ⟨some response, result⟩ = none := by
  unfold Observed.granted
  cases result <;> simp [hstatus]

/-- The client after a response differs in the session that was granted. -/
theorem GatewayClient.receive_next (client : GatewayClient) (outbound : OutboundRequest)
    (response : Response) :
    (client.receive libraries outbound response).2 =
      { client with sessionId := (Observed.granted ⟨some response,
        (client.receive libraries outbound response).1⟩).or client.sessionId } := by
  unfold GatewayClient.receive
  dsimp only
  split
  · rfl
  split
  · rfl
  next rawBody hbody =>
    cases hsession : responseSession response.headers with
    | error message => rfl
    | ok session =>
        cases parseResponseBody libraries rawBody response.headers with
        | error message =>
            cases hstatus : response.isSuccess with
            | true => rfl
            | false => simp [granted_of_not_success hstatus]
        | ok message =>
            cases hstatus : response.isSuccess with
            | true => simp [granted_of_ok hsession hstatus, Except.toOption]
            | false => simp [granted_of_not_success hstatus]

/-- One turn: the session is what was granted, or else what it was. -/
theorem GatewayClient.take_next (client : GatewayClient) (turn : Turn) :
    (client.take libraries turn).2 =
      { client with sessionId :=
          (client.take libraries turn).1.granted.or client.sessionId } := by
  unfold GatewayClient.take GatewayClient.send Turn.response
  cases client.buildRequest libraries turn.request with
  | error failure => rfl
  | ok outbound =>
      dsimp only [Except.toOption, Option.bind_some]
      cases turn.execute outbound with
      | error error => rfl
      | ok response => exact client.receive_next outbound response

theorem Observed.Rejected.granted {observed : Observed} (hrejected : observed.Rejected) :
    observed.granted = none := by
  unfold Observed.granted
  cases hresult : observed.result with
  | error failure => rfl
  | ok exchange =>
      cases hresponse : observed.response with
      | none => rfl
      | some response => simp [hrejected exchange hresult response hresponse]

/-- A response is returned only where its session was accepted. -/
theorem GatewayClient.receive_ok {client : GatewayClient} {outbound : OutboundRequest}
    {response : Response} {exchange : Exchange}
    (hok : (client.receive libraries outbound response).1 = .ok exchange) :
    ∃ session, responseSession response.headers = .ok session := by
  cases hsession : responseSession response.headers with
  | ok session => exact ⟨session, rfl⟩
  | error message =>
      unfold GatewayClient.receive at hok
      dsimp only at hok
      split at hok
      · cases hok
      split at hok
      · cases hok
      · rw [hsession] at hok
        cases hok

/-- A granted session is nonempty and visible ASCII. -/
theorem GatewayClient.take_granted {client : GatewayClient} {turn : Turn} {session : List Char}
    (hgranted : (client.take libraries turn).1.granted = some session) : ValidSession session := by
  unfold GatewayClient.take GatewayClient.send Turn.response at hgranted
  cases hbuild : client.buildRequest libraries turn.request with
  | error failure =>
      rw [hbuild] at hgranted
      cases hgranted
  | ok outbound =>
      rw [hbuild] at hgranted
      dsimp only [Except.toOption, Option.bind_some] at hgranted
      cases hexecute : turn.execute outbound with
      | error error =>
          rw [hexecute] at hgranted
          cases hgranted
      | ok response =>
          rw [hexecute] at hgranted
          cases hresult : (client.receive libraries outbound response).1 with
          | error failure =>
              simp [Observed.granted, hresult] at hgranted
          | ok exchange =>
              obtain ⟨accepted, haccepted⟩ := GatewayClient.receive_ok hresult
              cases hstatus : response.isSuccess with
              | false => simp [granted_of_not_success hstatus] at hgranted
              | true =>
                  simp only [hresult, granted_of_ok haccepted hstatus] at hgranted
                  rcases responseSession_ok_iff.mp haccepted with
                    ⟨_, rfl⟩ | ⟨value, _, hempty, hvisible, rfl⟩
                  · cases hgranted
                  · cases hgranted
                    refine ⟨by simpa using hempty, fun char hchar => ?_⟩
                    -- A header value is bytes; the visible ones are characters of the same number.
                    obtain ⟨byte, hbyte, rfl⟩ := List.mem_map.mp hchar
                    obtain ⟨hlow, hhigh⟩ := hvisible byte hbyte
                    rw [UInt8.le_iff_toNat_le] at hlow hhigh
                    have hvalid : byte.toNat.isValidChar := .inl (by
                      have : UInt8.toNat 0x7e = 126 := rfl
                      omega)
                    have hnat : (Char.ofNat byte.toNat).toNat = byte.toNat := by
                      rw [Char.ofNat, dif_pos hvalid]
                      rfl
                    rw [hnat]
                    exact ⟨hlow, hhigh⟩

/-- The session after a run is the last one granted in it, or else the one before. -/
theorem GatewayClient.run_sessionId (client : GatewayClient) (turns : List Turn) :
    (client.run libraries turns).2.sessionId =
      (Text.lastAccepted Observed.granted (client.run libraries turns).1).or
        client.sessionId := by
  induction turns generalizing client with
  | nil => rfl
  | cons turn turns ih =>
      have hnext :=
        congrArg GatewayClient.sessionId (@GatewayClient.take_next libraries client turn)
      show ((client.take libraries turn).2.run libraries turns).2.sessionId =
        (Text.lastAccepted Observed.granted ((client.take libraries turn).1 ::
          ((client.take libraries turn).2.run libraries turns).1)).or client.sessionId
      rw [ih, hnext, Text.lastAccepted_cons, Option.or_assoc]

/-- The session of a client is valid after every turn. -/
theorem GatewayClient.run_valid {client : GatewayClient}
    (hvalid : ∀ session, client.sessionId = some session → ValidSession session)
    (turns : List Turn) :
    ∀ session, (client.run libraries turns).2.sessionId = some session → ValidSession session := by
  induction turns generalizing client with
  | nil => exact hvalid
  | cons turn turns ih =>
      have hnext :=
        congrArg GatewayClient.sessionId (@GatewayClient.take_next libraries client turn)
      refine @ih (client.take libraries turn).2 fun session hsession => ?_
      rw [hnext] at hsession
      cases hgranted : (client.take libraries turn).1.granted with
      | none =>
          rw [hgranted, Option.none_or] at hsession
          exact hvalid session hsession
      | some granted =>
          rw [hgranted, Option.some_or] at hsession
          cases hsession
          exact GatewayClient.take_granted hgranted

theorem GatewayClientBuilder.build_sessionId {parser : UrlParser} {sets : String → SegmentSet}
    {builder : GatewayClientBuilder} {client : GatewayClient}
    (hbuild : builder.build libraries parser sets = .ok client) : client.sessionId = none := by
  unfold GatewayClientBuilder.build at hbuild
  simp only [except_bind_eq_ok, pure, Except.pure, Except.ok.injEq] at hbuild
  obtain ⟨_, _, _, _, _, _, _, _, _, _, rfl⟩ := hbuild
  rfl

/-- Over every sequence of exchanges the session of a new client is absent or valid, it
is the one the last granting exchange handed out, and an exchange that fails or has no
success status leaves it. -/
theorem GatewayClient.session_of_run {parser : UrlParser} {sets : String → SegmentSet}
    {builder : GatewayClientBuilder} {client : GatewayClient}
    (hbuild : builder.build libraries parser sets = .ok client) (turns : List Turn) :
    (∀ session, (client.run libraries turns).2.sessionId = some session →
        ValidSession session) ∧
      (client.run libraries turns).2.sessionId =
        Text.lastAccepted Observed.granted (client.run libraries turns).1 ∧
      ∀ turn, ((client.run libraries turns).2.take libraries turn).1.Rejected →
        ((client.run libraries turns).2.take libraries turn).2.sessionId =
          (client.run libraries turns).2.sessionId := by
  have hnone := GatewayClientBuilder.build_sessionId hbuild
  refine ⟨GatewayClient.run_valid (by simp [hnone]) turns, ?_, fun turn hrejected => ?_⟩
  · rw [client.run_sessionId, hnone, Option.or_none]
  · rw [GatewayClient.take_next, hrejected.granted]
    rfl

end Session

/-- Libraries for requests whose payload is `null`. -/
def nullLibraries : Libraries where
  headerValue := fun text => some (utf8 text)
  toJson := fun _ => utf8 "null".toList
  json := choosingParser fun _ => false

def localBuilder : GatewayClientBuilder where
  mode := .direct
  baseUrl := "http://127.0.0.1:8080/".toList
  serverId := "server".toList
  bearerToken := "token".toList
  protocolVersion := "2025-11-25".toList

/-- A turn in which the gateway answers with a status and a session. -/
def sessionTurn (status : Nat) (session : String) : Turn where
  request := .probe .null
  execute := fun _ => .ok ⟨status, [(mcpSessionId, utf8 session.toList)], [], false⟩

/-- The session of a failed exchange is not taken over. -/
theorem GatewayClient.session_of_run_granted :
    ∃ client, localBuilder.build nullLibraries loopbackParser
        (fun _ => specialPathSegment) = .ok client ∧
      (client.run nullLibraries [sessionTurn 200 "one", sessionTurn 500 "two"]).2.sessionId =
        some "one".toList :=
  ⟨_, rfl, (@GatewayClient.session_of_run nullLibraries loopbackParser
    (fun _ => specialPathSegment) localBuilder _ rfl
    [sessionTurn 200 "one", sessionTurn 500 "two"]).2.1.trans (by decide +kernel)⟩

end CfIntegration.Mcp.Gateway
