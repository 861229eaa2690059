import CfIntegration.Foundation.Hiding
import CfIntegration.Foundation.OrderedSet
import CfIntegration.Foundation.Utf8
import CfIntegration.Mcp.Probe

/-! # The gateway client

One client posts to the public MCP route, captures each exchange for the reports and
keeps the session that the gateway hands out. Captured texts have the bearer token and
the sessions replaced. What this hides depends on the secrets: one that is part of
another, or of the marker, leaves a trace of the other.
-/

namespace CfIntegration.Mcp.Gateway

open Overlap Redaction Protocol Utf8

def redacted : List Char := "<redacted>".toList

/-- The control characters of Unicode. -/
def isControl (char : Char) : Bool := char.val < 0x20 || (0x7f ≤ char.val && char.val < 0xa0)

/-- A control character as an escape, any other character as it is. -/
def sanitizeChar (char : Char) : List Char :=
  if char = '\n' then ['\\', 'n']
  else if char = '\r' then ['\\', 'r']
  else if char = '\t' then ['\\', 't']
  else if isControl char then
    ['\\', 'u', '{'] ++ (Nat.toDigits 16 char.toNat).leftpad 4 '0' ++ ['}']
  else [char]

/-- The secrets that there are; an empty one stands for none. -/
def configured (secrets : List (List Char)) : List (List Char) := secrets.filter (· ≠ [])

def redactAndSanitizeSecrets (value : List Char) (secrets : List (List Char)) : List Char :=
  (redactAll redacted (configured secrets) value).flatMap sanitizeChar

def redactAndSanitize (value token : List Char) : List Char :=
  redactAndSanitizeSecrets value [token]

/-- Header names in lower case, with their values, in the order they were added. -/
abbrev HeaderMap := List (String × List UInt8)

def HeaderMap.getAll (headers : HeaderMap) (name : String) : List (List UInt8) :=
  (headers.filter fun header => header.1 = name).map Prod.snd

def HeaderMap.get? (headers : HeaderMap) (name : String) : Option (List UInt8) :=
  (headers.getAll name).head?

/-- The text of a header value, unless a byte of it is no visible ASCII character. -/
def toStr (value : List UInt8) : Option (List Char) :=
  if value.all fun byte => byte = 0x09 || (0x20 ≤ byte && byte < 0x7f) then
    some (value.map fun byte => Char.ofNat byte.toNat)
  else none

def mcpProtocolVersion : String := "mcp-protocol-version"
def mcpSessionId : String := "mcp-session-id"
def backendHeader : String := "x-cf-integration-backend"

def dataplaneBackend : List Char := "dataplane".toList
def controlplaneFallbackBackend : List Char := "controlplane-fallback".toList
def controlplaneBackend : List Char := "controlplane".toList

def backendOfValue (value : List UInt8) : BackendIdentity :=
  if value = utf8 dataplaneBackend then .dataplane
  else if value = utf8 controlplaneFallbackBackend then .controlplaneFallback
  else if value = utf8 controlplaneBackend then .controlplane
  else .invalid

/-- The identity that exactly one backend marker gives. -/
def backendOfHeaders (headers : HeaderMap) : BackendIdentity :=
  match headers.getAll backendHeader with
  | [] => .missing
  | [value] => backendOfValue value
  | _ => .multiple

def sanitizedBackendValue (value : List UInt8) : List Char :=
  match backendOfValue value with
  | .dataplane => dataplaneBackend
  | .controlplaneFallback => controlplaneFallbackBackend
  | .controlplane => controlplaneBackend
  | .missing | .invalid | .multiple => "<invalid>".toList

def isSensitiveHeader (name : String) : Bool :=
  name ∈ ["authorization", "proxy-authorization", "cookie", "set-cookie", mcpSessionId]

def captureValue (secrets : List (List Char)) (name : String) (value : List UInt8) : List Char :=
  if name = backendHeader then sanitizedBackendValue value
  else if isSensitiveHeader name then redacted
  else
    match toStr value with
    | none => "<non-visible-ascii>".toList
    | some text => redactAndSanitizeSecrets text secrets

/-- The headers of a capture, the values of one name joined. -/
def captureHeaders (headers : HeaderMap) (secrets : List (List Char)) :
    OrderedMap String (List Char) :=
  headers.foldl (fun captured header =>
    let value := captureValue secrets header.1 header.2
    captured.insert header.1 (match captured.find? header.1 with
      | some existing => existing ++ ", ".toList ++ value
      | none => value)) OrderedMap.empty

/-- The session of a response, from at most one header. -/
def responseSession (headers : HeaderMap) : Except String (Option (List Char)) :=
  match headers.getAll mcpSessionId with
  | [] => .ok none
  | [value] =>
      if value = [] then .error "response MCP session header must not be empty"
      else if value.all fun byte => 0x21 ≤ byte && byte ≤ 0x7e then
        .ok (some (value.map fun byte => Char.ofNat byte.toNat))
      else
        .error "response MCP session header must contain only visible ASCII (0x21-0x7E)"
  | _ => .error "response contains multiple MCP session headers"

/-- How one request header differs from the client's own. -/
inductive HeaderOverride where
  | automatic
  | omit
  | value (text : List Char)
  deriving DecidableEq, Repr

structure GatewayRequest where
  payload : Value
  authorization : HeaderOverride
  protocolVersion : HeaderOverride
  session : HeaderOverride

/-- A JSON POST with the client's own headers. -/
def GatewayRequest.probe (payload : Value) : GatewayRequest :=
  ⟨payload, .automatic, .automatic, .automatic⟩

structure OutboundRequest where
  url : List Char
  headers : HeaderMap
  body : List UInt8
  deriving DecidableEq, Repr

/-- A response; its body arrives in chunks, after which reading it may fail. -/
structure Response where
  status : Nat
  headers : HeaderMap
  chunks : List (List UInt8)
  broken : Bool
  deriving DecidableEq, Repr

structure RequestCapture where
  mode : GatewayTopology
  method : List Char
  url : List Char
  headers : OrderedMap String (List Char)
  body : Option (List Char)

structure Exchange where
  mode : GatewayTopology
  request : RequestCapture
  status : Nat
  headers : OrderedMap String (List Char)
  body : List Char
  message : Option Value
  sessionId : Option (List Char)

inductive GatewayFailure where
  /-- Invalid local client configuration. -/
  | configuration (error : GatewayError)
  /-- The request failed before a response was captured. -/
  | request (mode : GatewayTopology) (message : List Char) (request : RequestCapture)
  /-- The response was refused; the exchange is captured. -/
  | exchange (mode : GatewayTopology) (message : List Char) (exchange : Exchange)

/-- The HTTP and JSON libraries: which texts are header values, and JSON texts. -/
structure Libraries where
  headerValue : List Char → Option (List UInt8)
  toJson : Value → List UInt8
  json : JsonParser

structure GatewayClient where
  mode : GatewayTopology
  endpoint : Url
  bearerToken : List Char
  protocolVersion : List Char
  sessionId : Option (List Char)

section Client

variable (libraries : Libraries)

def validateHeaderValue (mode : GatewayTopology) (name : String) (value : List Char) :
    Except GatewayFailure (List UInt8) :=
  okOr (libraries.headerValue value) (.configuration ⟨mode, s!"{name} header value is invalid"⟩)

structure GatewayClientBuilder where
  mode : GatewayTopology
  baseUrl : List Char
  serverId : List Char
  bearerToken : List Char
  protocolVersion : List Char

def bearer (token : List Char) : List Char := "Bearer ".toList ++ token

def GatewayClientBuilder.build (parser : UrlParser) (sets : String → SegmentSet)
    (builder : GatewayClientBuilder) : Except GatewayFailure GatewayClient := do
  bailIf (builder.bearerToken = [])
    (.configuration ⟨builder.mode, "bearer token must not be empty"⟩)
  let _ ← validateHeaderValue libraries builder.mode "Authorization" (bearer builder.bearerToken)
  bailIf (Text.trim isWhitespace builder.protocolVersion = [])
    (.configuration ⟨builder.mode, "protocol version must not be empty"⟩)
  let _ ← validateHeaderValue libraries builder.mode mcpProtocolVersion builder.protocolVersion
  let endpoint ← (gatewayEndpoint parser sets builder.mode builder.baseUrl
    builder.serverId).mapError GatewayFailure.configuration
  return ⟨builder.mode, endpoint, builder.bearerToken, builder.protocolVersion, none⟩

def HeaderOverride.resolve (automatic : Option (List Char)) : HeaderOverride → Option (List Char)
  | .automatic => automatic
  | .omit => none
  | .value text => some text

def applyHeader (mode : GatewayTopology) (headers : HeaderMap) (name : String)
    (value : Option (List Char)) : Except GatewayFailure HeaderMap :=
  match value with
  | none => .ok headers
  | some text => do
      let value ← validateHeaderValue libraries mode name text
      return headers ++ [(String.ofList (name.toList.map Char.toLower), value)]

/-- The name that a stateless request is routed by. -/
def routingName (method : String) (params : Option Value) : Option String := do
  let params ← params
  let _ ← params.asObject
  if method ∈ ["tools/call", "prompts/get"] then (← params.get? "name").asStr
  else if method = "resources/read" then (← params.get? "uri").asStr
  else if method ∈ ["tasks/get", "tasks/update", "tasks/cancel"] then
    (← params.get? "taskId").asStr
  else none

/-- The headers that route a stateless request. -/
def applyRouting (mode : GatewayTopology) (payload : Value) (version : Option (List Char))
    (headers : HeaderMap) : Except GatewayFailure HeaderMap :=
  if version.any fun version => isStatelessProtocol (String.ofList version) then
    match (payload.get? "method").bind Value.asStr with
    | none => .ok headers
    | some method => do
        let headers ← applyHeader libraries mode headers "mcp-method" (some method.toList)
        applyHeader libraries mode headers "mcp-name"
          ((routingName method (payload.get? "params")).map String.toList)
  else .ok headers

def accept : List Char := "application/json, text/event-stream".toList
def jsonContentType : List Char := "application/json".toList
def sseContentType : List Char := "text/event-stream".toList

def GatewayClient.buildRequest (client : GatewayClient) (request : GatewayRequest) :
    Except GatewayFailure OutboundRequest := do
  let headers : HeaderMap := [("accept", utf8 accept), ("content-type", utf8 jsonContentType)]
  let headers ← applyHeader libraries client.mode headers "Authorization"
    (request.authorization.resolve (some (bearer client.bearerToken)))
  let version := request.protocolVersion.resolve (some client.protocolVersion)
  let headers ← applyHeader libraries client.mode headers mcpProtocolVersion version
  let headers ← applyRouting libraries client.mode request.payload version headers
  let headers ← applyHeader libraries client.mode headers mcpSessionId
    (request.session.resolve client.sessionId)
  return ⟨client.endpoint.asStr, headers, libraries.toJson request.payload⟩

def outboundSession (request : OutboundRequest) : Option (List Char) :=
  (request.headers.get? mcpSessionId).bind toStr

def captureRequest (mode : GatewayTopology) (request : OutboundRequest) (token : List Char) :
    RequestCapture :=
  let secrets := [token, (outboundSession request).getD []]
  { mode
    method := "POST".toList
    url := redactAndSanitizeSecrets request.url secrets
    headers := captureHeaders request.headers secrets
    body := some (redactAndSanitizeSecrets (fromUtf8Lossy request.body) secrets) }

def maxResponseBodyBytes : Nat := 8 * 1024 * 1024

def appendChunk (body chunk : List UInt8) : Except String (List UInt8) :=
  if body.length + chunk.length > maxResponseBodyBytes then
    .error "response body exceeds safety limit"
  else .ok (body ++ chunk)

def boundedResponseBody (response : Response) : Except String (List UInt8) := do
  let body ← response.chunks.foldlM appendChunk []
  bailIf (response.broken = true) "failed to read response body"
  return body

def equalsIgnoreCase (first second : List Char) : Bool :=
  first.map Char.toLower == second.map Char.toLower

def parseResponseBody (body : List UInt8) (headers : HeaderMap) :
    Except String (Option Value) :=
  if body = [] then .ok none
  else
    let contentType := ((headers.get? "content-type").bind toStr).getD []
    let mediaType := Text.trim isWhitespace (contentType.takeWhile (· ≠ ';'))
    if !equalsIgnoreCase mediaType jsonContentType && !equalsIgnoreCase mediaType sseContentType
    then .ok none
    else do
      let text ← okOr (fromUtf8 body) "response body is not valid UTF-8"
      (parseMcpBody libraries.json text contentType).mapError
        fun _ => "response body is not valid JSON or SSE"

def Response.isSuccess (response : Response) : Bool :=
  200 ≤ response.status && response.status < 300

/-- The exchange that is captured when a response came. -/
def captureExchange (client : GatewayClient) (outbound : OutboundRequest) (response : Response)
    (body : List Char) (message : Option Value) (sessionId : Option (List Char)) : Exchange :=
  { mode := client.mode
    request := captureRequest client.mode outbound client.bearerToken
    status := response.status
    headers := captureHeaders response.headers [client.bearerToken,
      (outboundSession outbound).getD [],
      ((responseSession response.headers).toOption.bind id).getD []]
    body, message, sessionId }

/-- What the client makes of a response, and the client afterwards. -/
def GatewayClient.receive (client : GatewayClient) (outbound : OutboundRequest)
    (response : Response) : Except GatewayFailure Exchange × GatewayClient :=
  let session := responseSession response.headers
  let capture := captureExchange client outbound response
  let refuse (message : List Char) (exchange : Exchange) :
      Except GatewayFailure Exchange × GatewayClient :=
    (.error (.exchange client.mode message exchange), client)
  let markerError :=
    if client.mode.requiresDataplane then (backendOfHeaders response.headers).dataplaneError
    else none
  match markerError with
  | some message =>
      refuse message.toList (capture "<response body rejected before reading>".toList none none)
  | none =>
      match boundedResponseBody response with
      | .error error =>
          refuse (redactAndSanitize error.toList client.bearerToken)
            (capture "<response body unavailable>".toList none none)
      | .ok rawBody =>
          let sessionId := session.toOption.bind id
          let parsed := parseResponseBody libraries rawBody response.headers
          let exchange := capture
            (redactAndSanitizeSecrets (fromUtf8Lossy rawBody) [client.bearerToken,
              (outboundSession outbound).getD [], sessionId.getD []])
            (parsed.toOption.bind id) sessionId
          match session, parsed with
          | .error message, _ => refuse message.toList exchange
          | .ok _, .error message =>
              if response.isSuccess then refuse message.toList exchange else (.ok exchange, client)
          | .ok _, .ok _ =>
              if response.isSuccess then
                (.ok exchange, { client with sessionId := sessionId.or client.sessionId })
              else (.ok exchange, client)

/-- One exchange; `execute` is the transport, which may fail with a message. -/
def GatewayClient.send (client : GatewayClient) (request : GatewayRequest)
    (execute : OutboundRequest → Except String Response) :
    Except GatewayFailure Exchange × GatewayClient :=
  match client.buildRequest libraries request with
  | .error error => (.error error, client)
  | .ok outbound =>
      match execute outbound with
      | .error error =>
          (.error (.request client.mode (redactAndSanitize error.toList client.bearerToken)
            (captureRequest client.mode outbound client.bearerToken)), client)
      | .ok response => client.receive libraries outbound response

end Client

end CfIntegration.Mcp.Gateway
