import CfIntegration.Mcp.Json

/-! # MCP requests

The JSON-RPC payloads that the harness sends, in the initialization-based and in the
stateless lifecycle.
-/

namespace CfIntegration.Mcp

/-- The entry of an object under a key. -/
def Value.get? (value : Value) (key : String) : Option Value :=
  value.asObject.bind (List.lookup key)

namespace Protocol

/-- The first stateless protocol version. -/
def statelessProtocolVersion : String := "2026-07-28"

/-- Revisions are dates, compared as texts. -/
def isStatelessProtocol (protocolVersion : String) : Bool :=
  decide (statelessProtocolVersion ≤ protocolVersion)

/-- Whether a text has the `YYYY-MM-DD` form of a revision. -/
def isProtocolRevision (value : String) : Bool :=
  let bytes := value.toUTF8.toList
  bytes.length = 10 && bytes[4]? = some '-'.toUInt8 && bytes[7]? = some '-'.toUInt8 &&
    bytes.zipIdx.all fun (byte, index) =>
      index = 4 || index = 7 || '0'.toUInt8 ≤ byte && byte ≤ '9'.toUInt8

def jsonrpcWithId (method : String) (params : Option Value) (id : Value) : Value :=
  .object ([("jsonrpc", .string "2.0"), ("id", id), ("method", .string method)] ++
    (params.map fun params => ("params", params)).toList)

/-- Insert into a map, replacing what is under the key. -/
def insertEntry (entries : List (String × Value)) (entry : String × Value) :
    List (String × Value) :=
  entries.filter (fun other => other.1 != entry.1) ++ [entry]

def clientInfo : Value := .object [("name", .string "cf-integration"), ("version", .string "1.0")]

def requestMetadata (protocolVersion : String) : List (String × Value) :=
  [("io.modelcontextprotocol/protocolVersion", .string protocolVersion),
    ("io.modelcontextprotocol/clientInfo", clientInfo),
    ("io.modelcontextprotocol/clientCapabilities", .object [])]

/-- Adds the mandatory stateless metadata; params of another shape are dropped. -/
def withRequestMetadata (params : Option Value) (protocolVersion : String) : Value :=
  let params := (params.bind Value.asObject).getD []
  let metadata := ((params.lookup "_meta").bind Value.asObject).getD []
  let metadata := (requestMetadata protocolVersion).foldl insertEntry metadata
  .object (insertEntry params ("_meta", .object metadata))

def statelessJsonrpcWithId (method : String) (params : Option Value) (id : Value)
    (protocolVersion : String) : Value :=
  jsonrpcWithId method (some (withRequestMetadata params protocolVersion)) id

def initializeWithIdAndVersion (id : Value) (protocolVersion : String) : Value :=
  jsonrpcWithId "initialize"
    (some (.object [("protocolVersion", .string protocolVersion), ("capabilities", .object []),
      ("clientInfo", clientInfo)])) id

/-- The arguments of the tools that the harness knows how to call. -/
def toolCallArgs (toolName : String) : Option Value :=
  if toolName = "test_simple_text" then some (.object [])
  else if toolName ∈ ["echo", "fast_time_echo", "fast-time-echo"] then
    some (.object [("message", .string "cf-integration")])
  else if toolName ∈ ["get_system_time", "get-system-time", "fast_time_get_system_time",
      "fast-time-get_system_time", "fast-time-get-system-time"] then
    some (.object [("timezone", .string "UTC")])
  else none

def methodOf (payload : Value) : Option String := (payload.get? "method").bind Value.asStr

/-- A payload with an id asks for a reply. -/
def idOf (payload : Value) : Option Value := payload.get? "id"

/-- The tool that a payload calls. -/
def calledTool (payload : Value) : Option String :=
  if methodOf payload = some "tools/call" then
    ((payload.get? "params").bind (Value.get? · "name")).bind Value.asStr
  else none

@[simp] theorem methodOf_jsonrpcWithId (method : String) (params : Option Value) (id : Value) :
    methodOf (jsonrpcWithId method params id) = some method := by
  cases params <;> rfl

@[simp] theorem idOf_jsonrpcWithId (method : String) (params : Option Value) (id : Value) :
    idOf (jsonrpcWithId method params id) = some id := by
  cases params <;> rfl

theorem calledTool_of_method {payload : Value} {method : String}
    (hmethod : methodOf payload = some method) (hother : method ≠ "tools/call") :
    calledTool payload = none := by
  unfold calledTool
  rw [if_neg]
  rw [hmethod]
  exact fun hsame => hother (Option.some.inj hsame)

end Protocol

end CfIntegration.Mcp
