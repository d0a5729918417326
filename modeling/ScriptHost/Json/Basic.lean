import ScriptHost.Number.Shortest
import ScriptHost.Record
/-!
# JSON values

A number is an integer between `-2 ^ 63` and `2 ^ 64 - 1` or a finite double; which of the two it is
depends on how it was written.  The fields of an object form a record, so equal objects are equal as
data.
-/

set_option autoImplicit false

namespace ScriptHost

/-- A value of JSON. -/
inductive Json where
  | null
  | bool (b : Bool)
  | int (n : Int)
  | float (x : Binary64)
  | str (s : String)
  | arr (items : List Json)
  | obj (fields : List (String × Json))
deriving Inhabited, BEq

namespace Json

/-- The smallest integer of 64 bits with a sign. -/
def minInt : Int := -0x8000000000000000

/-- The greatest integer of 64 bits with a sign. -/
def maxInt : Int := 0x7fffffffffffffff

/-- The greatest number of 64 bits without a sign. -/
def maxNat : Nat := 0xffffffffffffffff

/-- An object with the given fields, in any order. -/
def ofFields (fields : List (String × Json)) : Json := .obj (Record.ofList fields)

/-- The field with a name, if the value is an object. -/
def field? (name : String) : Json → Option Json
  | .obj fields => Record.get? fields name
  | _ => none

/-- A text, or `null` if there is none. -/
def ofOption : Option String → Json
  | some s => .str s
  | none => .null

/-! ## Writing -/

/-- The digit of a number below sixteen, in small letters. -/
def hexDigit (n : Nat) : Char := (Nat.digitChar (n % 16))

/-- A character of a string literal: the quotation mark, the backslash and the control characters
are escaped, everything else stands for itself. -/
def literalChar (c : Char) : List Char :=
  if c = '"' then ['\\', '"']
  else if c = '\\' then ['\\', '\\']
  else if c = '\n' then ['\\', 'n']
  else if c = '\r' then ['\\', 'r']
  else if c = '\t' then ['\\', 't']
  else if c.toNat = 8 then ['\\', 'b']
  else if c.toNat = 12 then ['\\', 'f']
  else if c.toNat < 32 then ['\\', 'u', '0', '0', hexDigit (c.toNat / 16), hexDigit c.toNat]
  else [c]

/-- A text in quotes. -/
def literal (s : String) : List Char :=
  '"' :: (s.toList.flatMap literalChar ++ ['"'])

/-- An integer as it is written. -/
def intChars (n : Int) : List Char := (toString n).toList

/-- A double as JSON text; what is not finite has none and becomes `null`. -/
def floatChars (x : Binary64) : List Char :=
  if x.isFinite then (x.text jsonLayout).toList else "null".toList

mutual

/-- The compact text of a value. -/
def chars : Json → List Char
  | .null => "null".toList
  | .bool true => "true".toList
  | .bool false => "false".toList
  | .int n => intChars n
  | .float x => floatChars x
  | .str s => literal s
  | .arr items => '[' :: (itemChars items ++ [']'])
  | .obj fields => '\x7b' :: (fieldChars fields ++ ['\x7d'])

/-- Items with commas between them. -/
def itemChars : List Json → List Char
  | [] => []
  | [item] => item.chars
  | item :: rest => item.chars ++ ',' :: itemChars rest

/-- Fields with commas between them. -/
def fieldChars : List (String × Json) → List Char
  | [] => []
  | [(name, value)] => literal name ++ ':' :: value.chars
  | (name, value) :: rest => literal name ++ ':' :: (value.chars ++ ',' :: fieldChars rest)

end

/-- The value as it is written, without blanks. -/
def text (j : Json) : String := String.ofList j.chars

end Json

end ScriptHost
