import ScriptHost.Value.Basic
import ScriptHost.Json.Reader
/-!
# Values as JSON

Every value has a JSON form: bytes become a list of integers, and a float without a number becomes
`null`.  The key of a value is its text, if it is one, and otherwise the compact text of its JSON
form.
-/

set_option autoImplicit false

namespace ScriptHost.Value

mutual

/-- The value as JSON.  Bytes become a list of numbers, and a float that is no number becomes
null. -/
def toJson : Value → Json
  | null => .null
  | bool b => .bool b
  | int n => .int n
  | float x => if x.isFinite then .float x else .null
  | str s => .str s
  | bytes b => .arr (b.map fun byte => .int byte.toNat)
  | arr items => .arr (itemsToJson items)
  | map fields => .obj (fieldsToJson fields)

/-- Items as JSON. -/
def itemsToJson : List Value → List Json
  | [] => []
  | item :: rest => item.toJson :: itemsToJson rest

/-- Fields as JSON. -/
def fieldsToJson : List (String × Value) → List (String × Json)
  | [] => []
  | (name, value) :: rest => (name, value.toJson) :: fieldsToJson rest

end

mutual

/-- The value of JSON data; an integer that does not fit becomes the nearest float. -/
def ofJson : Json → Value
  | .null => null
  | .bool b => bool b
  | .int n => if n ≤ maxInt then int n else float (.ofNat n.toNat)
  | .float x => float x
  | .str s => str s
  | .arr items => arr (itemsOfJson items)
  | .obj fields => map (fieldsOfJson fields)

/-- The values of items. -/
def itemsOfJson : List Json → List Value
  | [] => []
  | item :: rest => ofJson item :: itemsOfJson rest

/-- The values of fields. -/
def fieldsOfJson : List (String × Json) → List (String × Value)
  | [] => []
  | (name, value) :: rest => (name, ofJson value) :: fieldsOfJson rest

end

/-- The text that a value goes by as a key: texts stand for themselves, all else for its JSON. -/
def key : Value → String
  | str s => s
  | v => v.toJson.text

end ScriptHost.Value
