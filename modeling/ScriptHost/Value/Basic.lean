import ScriptHost.Number.Shortest
import ScriptHost.Record
import ScriptHost.Text.Utf8
/-!
# Values

The data that scripts hand to the capabilities: queue items, cache entries, event payloads, query
parameters and rows.  Integers have 64 bits; the fields of a map form a record.
-/

set_option autoImplicit false

namespace ScriptHost

/-- A value that scripts and capabilities exchange. -/
inductive Value where
  | null
  | bool (b : Bool)
  | int (n : Int)
  | float (x : Binary64)
  | str (s : String)
  | bytes (b : List UInt8)
  | arr (items : List Value)
  | map (fields : List (String × Value))
deriving Inhabited, BEq

namespace Value

/-- The smallest integer. -/
def minInt : Int := -0x8000000000000000

/-- The greatest integer. -/
def maxInt : Int := 0x7fffffffffffffff

/-- Whether the value is null. -/
def isNull : Value → Bool
  | null => true
  | _ => false

/-- Whether the value is a map. -/
def isMap : Value → Bool
  | map _ => true
  | _ => false

/-- The text, if the value is one. -/
def str? : Value → Option String
  | str s => some s
  | _ => none

/-- The integer, if the value is one. -/
def int? : Value → Option Int
  | int n => some n
  | _ => none

/-- The bytes of a byte string or of a text. -/
def bytes? : Value → Option Bytes
  | bytes b => some b
  | str s => some (Utf8.encode s)
  | _ => none

/-- The value under a name, if the value is a map. -/
def field? (name : String) : Value → Option Value
  | map fields => Record.get? fields name
  | _ => none

/-- A map with the given fields, in any order. -/
def ofFields (fields : List (String × Value)) : Value := map (Record.ofList fields)

/-- A natural number below `2 ^ 64`: one that is no integer of 64 bits becomes the nearest float. -/
def ofNat (n : Nat) : Value := if n < 0x8000000000000000 then int n else float (.ofNat n)

/-- An absent value is `null`. -/
def ofOption (v : Option Value) : Value := v.getD null

mutual

/-- Equality of values, in which floats compare as numbers: a NaN differs from itself and the two
zeros are equal. -/
def same : Value → Value → Bool
  | null, null => true
  | bool a, bool b => a == b
  | int a, int b => a == b
  | float a, float b => a.sameNumber b
  | str a, str b => a == b
  | bytes a, bytes b => a == b
  | arr a, arr b => sameItems a b
  | map a, map b => sameFields a b
  | _, _ => false

/-- Whether items are equal, one by one. -/
def sameItems : List Value → List Value → Bool
  | [], [] => true
  | a :: as, b :: bs => a.same b && sameItems as bs
  | _, _ => false

/-- Whether fields have the same names and equal values, one by one. -/
def sameFields : List (String × Value) → List (String × Value) → Bool
  | [], [] => true
  | (m, a) :: as, (n, b) :: bs => m == n && a.same b && sameFields as bs
  | _, _ => false

end

end Value

end ScriptHost
