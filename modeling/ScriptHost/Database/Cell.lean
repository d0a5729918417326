import ScriptHost.Value.Json
/-!
# Cells

What the store keeps in a column of a row.  A value that has no storage class of its own is stored
as another: a truth value as the number 0 or 1, and a list or a map as the text of its JSON form.
The store has no number that is none and keeps a null in its place.
-/

set_option autoImplicit false

namespace ScriptHost.Database

/-- A value as a database stores it. -/
inductive Cell where
  | null
  | integer (n : Int)
  | real (x : Binary64)
  | text (b : Bytes)
  | blob (b : Bytes)
deriving DecidableEq, Repr, Inhabited

namespace Cell

/-- The parameter that is bound for a value. -/
def ofValue : Value → Cell
  | .null => null
  | .bool b => integer (if b then 1 else 0)
  | .int n => integer n
  | .float x => real x
  | .str s => text (Utf8.encode s)
  | .bytes b => blob b
  | v => text (Utf8.encode v.toJson.text)

/-- The value that is read from a cell. -/
def toValue : Cell → Value
  | null => .null
  | integer n => .int n
  | real x => .float x
  | text b => .str (Utf8.decodeLossy b)
  | blob b => .bytes b

/-- What the store keeps of a parameter. -/
def stored : Cell → Cell
  | real x => if x.isNaN then null else real x
  | c => c

/-- Whether two cells are equal in a condition or a key: numbers by their value, and a null to
nothing. -/
def matchesKey : Cell → Cell → Bool
  | integer m, integer n => m == n
  | integer n, real x => x.isInteger n
  | real x, integer n => x.isInteger n
  | real x, real y => x.sameNumber y
  | text a, text b => a == b
  | blob a, blob b => a == b
  | _, _ => false

end Cell

end ScriptHost.Database
