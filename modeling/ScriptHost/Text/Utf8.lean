/-!
# Text as bytes

The UTF-8 form of a text, and the text of a byte string that may not be well formed.  A decoder
looks at the longest beginning of its input that could still become a character: a whole character
is taken, and a beginning that cannot be completed is one fault.  Reading leniently puts U+FFFD in
the place of each fault; reading strictly accepts only input without one.
-/

set_option autoImplicit false

namespace ScriptHost

/-- A sequence of bytes. -/
abbrev Bytes := List UInt8

theorem toNat_toUInt8 {n : Nat} (h : n < 0x100) : n.toUInt8.toNat = n := Nat.mod_eq_of_lt h

namespace Utf8

/-- The bytes of a character in UTF-8. -/
def encodeChar (c : Char) : Bytes :=
  let n := c.toNat
  if n < 0x80 then [n.toUInt8]
  else if n < 0x800 then [(0xc0 + n / 0x40).toUInt8, (0x80 + n % 0x40).toUInt8]
  else if n < 0x10000 then
    [(0xe0 + n / 0x1000).toUInt8, (0x80 + n / 0x40 % 0x40).toUInt8, (0x80 + n % 0x40).toUInt8]
  else
    [(0xf0 + n / 0x40000).toUInt8, (0x80 + n / 0x1000 % 0x40).toUInt8,
      (0x80 + n / 0x40 % 0x40).toUInt8, (0x80 + n % 0x40).toUInt8]

/-- The bytes of a text in UTF-8. -/
def encode (text : String) : Bytes := text.toList.flatMap encodeChar

/-- The low six bits of a byte behind the first. -/
def low (b : UInt8) : Nat := b.toNat % 0x40

/-- Whether a byte is between two bounds. -/
def within (b : UInt8) (first last : Nat) : Bool := first ≤ b.toNat && b.toNat ≤ last

/-- Whether a byte continues a character. -/
def isTail (b : UInt8) : Bool := within b 0x80 0xbf

/-- The bytes that may follow a first byte of a character of three or four bytes. -/
def secondRange (first : UInt8) : Nat × Nat :=
  match first.toNat with
  | 0xe0 => (0xa0, 0xbf)
  | 0xed => (0x80, 0x9f)
  | 0xf0 => (0x90, 0xbf)
  | 0xf4 => (0x80, 0x8f)
  | _ => (0x80, 0xbf)

/-- The first character, or `none` for a fault, and what follows it. -/
def next (a : UInt8) (rest : Bytes) : Option Char × Bytes :=
  if a.toNat < 0x80 then (some (Char.ofNat a.toNat), rest)
  else if within a 0xc2 0xdf then
    match rest with
    | b :: rest' =>
      if isTail b then (some (Char.ofNat ((a.toNat - 0xc0) * 0x40 + low b)), rest')
      else (none, rest)
    | [] => (none, rest)
  else if within a 0xe0 0xef then
    match rest with
    | b :: rest' =>
      if within b (secondRange a).1 (secondRange a).2 then
        match rest' with
        | c :: rest'' =>
          if isTail c then
            (some (Char.ofNat ((a.toNat - 0xe0) * 0x1000 + low b * 0x40 + low c)), rest'')
          else (none, rest')
        | [] => (none, rest')
      else (none, rest)
    | [] => (none, rest)
  else if within a 0xf0 0xf4 then
    match rest with
    | b :: rest' =>
      if within b (secondRange a).1 (secondRange a).2 then
        match rest' with
        | c :: rest'' =>
          if isTail c then
            match rest'' with
            | d :: rest''' =>
              if isTail d then
                let n := (a.toNat - 0xf0) * 0x40000 + low b * 0x1000 + low c * 0x40 + low d
                (some (Char.ofNat n), rest''')
              else (none, rest'')
            | [] => (none, rest'')
          else (none, rest')
        | [] => (none, rest')
      else (none, rest)
    | [] => (none, rest)
  else (none, rest)

theorem length_next_le (a : UInt8) (rest : Bytes) : (next a rest).2.length ≤ rest.length := by
  unfold next
  repeat' split
  all_goals simp_all
  all_goals omega

/-- The characters and faults of a byte string, in order, behind those already found. -/
def scanAfter (found : List (Option Char)) : Bytes → List (Option Char)
  | [] => found.reverse
  | a :: rest => scanAfter ((next a rest).1 :: found) (next a rest).2
termination_by bytes => bytes.length
decreasing_by
  have := length_next_le a rest
  simp
  omega

/-- The characters and faults of a byte string, in order. -/
def scan (bytes : Bytes) : List (Option Char) := scanAfter [] bytes

/-- The text of a byte string, with U+FFFD in the place of each fault. -/
def decodeLossy (bytes : Bytes) : String :=
  String.ofList ((scan bytes).map (·.getD '\uFFFD'))

/-- The text of a well-formed byte string. -/
def decode? (bytes : Bytes) : Option String :=
  ((scan bytes).mapM id).map String.ofList

end Utf8

end ScriptHost
