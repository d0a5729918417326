import ScriptHost.Text.Blank
import ScriptHost.Text.Utf8
/-!
# Form data

The query of a URL is a list of names and values: pairs between ampersands, cut at the first equals
sign, with `+` for a space and `%` in front of the two hexadecimal digits of a byte.
-/

set_option autoImplicit false

namespace ScriptHost.Form

/-- The value of a hexadecimal digit. -/
def hexByte? (b : UInt8) : Option Nat :=
  let n := b.toNat
  if 0x30 ≤ n ∧ n ≤ 0x39 then some (n - 0x30)
  else if 0x61 ≤ n ∧ n ≤ 0x66 then some (n - 0x57)
  else if 0x41 ≤ n ∧ n ≤ 0x46 then some (n - 0x37)
  else none

/-- Replaces each `%` in front of two hexadecimal digits by their byte. -/
def percentDecode : Bytes → Bytes
  | 0x25 :: a :: b :: rest =>
    match hexByte? a, hexByte? b with
    | some h, some l => (h * 16 + l).toUInt8 :: percentDecode rest
    | _, _ => 0x25 :: percentDecode (a :: b :: rest)
  | b :: rest => b :: percentDecode rest
  | [] => []

/-- The text of a name or a value: a plus sign is a blank, and `%` is followed by the number of a
byte. -/
def decodePart (bytes : Bytes) : String :=
  Utf8.decodeLossy (percentDecode (bytes.map fun b => if b = 0x2b then 0x20 else b))

/-- A name and a value, with `=` between them; without it there is no value. -/
def decodePair (bytes : Bytes) : String × String :=
  match Text.splitFirst (· = 0x3d) bytes with
  | some (name, value) => (decodePart name, decodePart value)
  | none => (decodePart bytes, "")

/-- The names and values of a query, in order; empty pairs are left out. -/
def parse (query : String) : List (String × String) :=
  ((Text.cut (· = 0x26) (Utf8.encode query)).filter (· ≠ [])).map decodePair

end ScriptHost.Form
