import ScriptHost.Text.Hex
import ScriptHost.Text.Utf8
/-!
# Percent escapes

A part of an address that may not hold a character holds the bytes of it, each as a percent sign and
two digits.  Control characters and everything outside ASCII are escaped in every part; what else
is, depends on the part.
-/

set_option autoImplicit false

namespace ScriptHost.Url

/-! ## What the parts of an address escape -/

/-- What is escaped in a fragment. -/
def fragmentMarks : List Char := [' ', '"', '<', '>', '\x60']

/-- What is escaped in a path. -/
def pathMarks : List Char := fragmentMarks ++ ['#', '?', '\x7b', '\x7d']

/-- What is escaped in a user and a password. -/
def userMarks : List Char := pathMarks ++ ['/', ':', ';', '=', '@', '[', '\\', ']', '^', '|']

/-- What is escaped in a query. -/
def queryMarks : List Char := [' ', '"', '#', '<', '>']

/-! ## Escaping -/

/-- The digit of a number below sixteen, as a capital. -/
def upperHex (n : Nat) : Char := (Nat.digitChar (n % 16)).toUpper

/-- A byte behind `%`. -/
def escapeByte (b : UInt8) : List Char := ['%', upperHex (b.toNat / 16), upperHex b.toNat]

/-- Whether a character is escaped: it is marked, or no visible character of ASCII. -/
def isEscaped (marks : List Char) (c : Char) : Bool :=
  c.toNat < 0x20 || 0x7f ≤ c.toNat || marks.contains c

/-- A character as it is written, byte by byte if it is escaped. -/
def escapeChar (marks : List Char) (c : Char) : List Char :=
  if isEscaped marks c then (Utf8.encodeChar c).flatMap escapeByte else [c]

/-- A text as it is written. -/
def escape (marks : List Char) (cs : List Char) : String :=
  String.ofList (cs.flatMap (escapeChar marks))

/-- The bytes of a text with escapes; a percent sign that is no escape stands for itself. -/
def unescape : List Char → Bytes
  | [] => []
  | '%' :: a :: b :: rest =>
    match Text.hexValue? a, Text.hexValue? b with
    | some x, some y => (x * 16 + y).toUInt8 :: unescape rest
    | _, _ => 0x25 :: unescape (a :: b :: rest)
  | c :: rest => Utf8.encodeChar c ++ unescape rest

end ScriptHost.Url
