import CfIntegration.Foundation.Text

/-! # JSON messages

JSON values with the accessors the MCP client reads them by, and what is assumed of
a JSON parser.
-/

namespace CfIntegration.Mcp

inductive Number where
  | unsigned (value : UInt64)
  | negative (value : Int64)
  | float (text : String)
  deriving DecidableEq, Repr

/-- A JSON value. The keys of an object are listed once each. -/
inductive Value where
  | null
  | bool (value : Bool)
  | number (value : Number)
  | string (value : String)
  | array (items : List Value)
  | object (entries : List (String × Value))

namespace Value

def asStr : Value → Option String
  | .string value => some value
  | _ => none

def asU64 : Value → Option UInt64
  | .number (.unsigned value) => some value
  | _ => none

def asArray : Value → Option (List Value)
  | .array items => some items
  | _ => none

def asObject : Value → Option (List (String × Value))
  | .object entries => some entries
  | _ => none

end Value

/-- The whitespace around the tokens of a JSON text. -/
def isJsonWhitespace (char : Char) : Bool := char ∈ [' ', '\t', '\n', '\r']

/-- A JSON parser. Whitespace around the text does not count, and an empty text is
no JSON. -/
structure JsonParser where
  parse : List Char → Option Value
  trimmed : ∀ text, parse (Text.trim isJsonWhitespace text) = parse text
  empty : parse [] = none

end CfIntegration.Mcp
