import ScriptHost.Text.Utf8
/-!
# Base64

Three bytes are written as four characters of six bits each; a shorter last group is filled up with
`=`.
-/

set_option autoImplicit false

namespace ScriptHost.Base64

/-- The digits of the encoding, in the order of their values. -/
def alphabet : List Char :=
  "ABCDEFGHIJKLMNOPQRSTUVWXYZabcdefghijklmnopqrstuvwxyz0123456789+/".toList

/-- The digit for the last six bits of a number. -/
def char (n : Nat) : Char := alphabet.getD (n % 64) '='

/-- The encoding of bytes, three at a time; what is missing at the end is filled up with `=`. -/
def encode : Bytes → List Char
  | [] => []
  | [a] =>
    let n := a.toNat * 0x10000
    [char (n / 0x40000), char (n / 0x1000), '=', '=']
  | [a, b] =>
    let n := a.toNat * 0x10000 + b.toNat * 0x100
    [char (n / 0x40000), char (n / 0x1000), char (n / 0x40), '=']
  | a :: b :: c :: rest =>
    let n := a.toNat * 0x10000 + b.toNat * 0x100 + c.toNat
    char (n / 0x40000) :: char (n / 0x1000) :: char (n / 0x40) :: char n :: encode rest

end ScriptHost.Base64
