/-!
# Hexadecimal text
-/

set_option autoImplicit false

namespace ScriptHost.Text

/-- The value of a hexadecimal digit. -/
def hexValue? (c : Char) : Option Nat :=
  if c.isDigit then some (c.toNat - '0'.toNat)
  else if 'a' ≤ c ∧ c ≤ 'f' then some (c.toNat - 'a'.toNat + 10)
  else if 'A' ≤ c ∧ c ≤ 'F' then some (c.toNat - 'A'.toNat + 10)
  else none

/-- The number of a character in lower-case hexadecimal digits, without leading zeros. -/
def hexNumber (n : Nat) : String := String.ofList (Nat.toDigits 16 n)

/-- The number that digits stand for. -/
def hexValue (digits : List Char) : Nat := digits.foldl (fun n c => n * 16 + (hexValue? c).getD 0) 0

/-- Two digits for each byte. -/
def hexBytes (data : List UInt8) : String :=
  String.ofList (data.flatMap fun b => [Nat.digitChar (b.toNat / 16), Nat.digitChar (b.toNat % 16)])

/-- The bytes of a text of which every two digits stand for one. -/
def bytesOfHex : List Char → List UInt8
  | a :: b :: rest => (hexValue [a, b]).toUInt8 :: bytesOfHex rest
  | _ => []

end ScriptHost.Text
