import ScriptHost.Text.Utf8
/-!
# The digest SHA-1

Messages are padded to blocks of sixteen words of 32 bits; each block is expanded to eighty words,
which stir five words of state one after the other.
-/

set_option autoImplicit false

namespace ScriptHost.Sha1

/-- The bytes of a number below `256 ^ count`, the most significant first. -/
def bigEndian (count n : Nat) : Bytes :=
  (List.range count).map fun i => (n >>> (8 * (count - 1 - i))).toUInt8

/-- The number whose bytes are given, the most significant first. -/
def ofBigEndian (bytes : Bytes) : Nat := bytes.foldl (fun n b => n * 256 + b.toNat) 0

/-- A message behind which a one bit, zeros and its length in bits fill the last block. -/
def padded (message : Bytes) : Bytes :=
  let zeros := (55 + 64 - message.length % 64) % 64
  message ++ 0x80 :: (List.replicate zeros 0 ++ bigEndian 8 (message.length * 8))

/-- The word, turned left by some bits. -/
def rotate (w : UInt32) (n : UInt32) : UInt32 := (w <<< n) ||| (w >>> (32 - n))

/-- The five words that the digest is computed in. -/
structure State where
  a : UInt32
  b : UInt32
  c : UInt32
  d : UInt32
  e : UInt32

/-- The words at the start. -/
def State.initial : State := ⟨0x67452301, 0xefcdab89, 0x98badcfe, 0x10325476, 0xc3d2e1f0⟩

/-- The sum of two states, word by word. -/
def State.add (s t : State) : State := ⟨s.a + t.a, s.b + t.b, s.c + t.c, s.d + t.d, s.e + t.e⟩

/-- The eighty words of a block: each new one mixes four of the sixteen before it, which are kept
with the latest first. -/
def expand : Nat → List UInt32 → List UInt32 → List UInt32
  | 0, _, out => out.reverse
  | n + 1, recent, out =>
    let w :=
      rotate (recent.getD 2 0 ^^^ recent.getD 7 0 ^^^ recent.getD 13 0 ^^^ recent.getD 15 0) 1
    expand n ((w :: recent).take 16) (w :: out)

/-- The word function and the constant of a round. -/
def roundPart (s : State) (i : Nat) : UInt32 × UInt32 :=
  if i < 20 then ((s.b &&& s.c) ||| ((~~~s.b) &&& s.d), 0x5a827999)
  else if i < 40 then (s.b ^^^ s.c ^^^ s.d, 0x6ed9eba1)
  else if i < 60 then ((s.b &&& s.c) ||| (s.b &&& s.d) ||| (s.c &&& s.d), 0x8f1bbcdc)
  else (s.b ^^^ s.c ^^^ s.d, 0xca62c1d6)

/-- One round, with one word of the block. -/
def round (s : State) (i : Nat) (w : UInt32) : State :=
  let (f, k) := roundPart s i
  ⟨rotate s.a 5 + f + s.e + k + w, s.a, rotate s.b 30, s.c, s.d⟩

/-- The words of a block, four bytes each. -/
def words : Bytes → List UInt32
  | a :: b :: c :: d :: rest => (ofBigEndian [a, b, c, d]).toUInt32 :: words rest
  | _ => []

/-- The state after a block: its eighty rounds, added to the state before. -/
def block (s : State) (bytes : Bytes) : State :=
  let first := words bytes
  let all := first ++ expand 64 first.reverse []
  s.add (all.zipIdx.foldl (fun s (w, i) => round s i w) s)

/-- Absorbs a padded message block by block. -/
def absorb : Nat → State → Bytes → State
  | 0, s, _ => s
  | n + 1, s, bytes => absorb n (block s (bytes.take 64)) (bytes.drop 64)

/-- The digest of a message. -/
def digest (message : Bytes) : Bytes :=
  let bytes := padded message
  let s := absorb (bytes.length / 64) .initial bytes
  [s.a, s.b, s.c, s.d, s.e].flatMap fun w => bigEndian 4 w.toNat

end ScriptHost.Sha1
