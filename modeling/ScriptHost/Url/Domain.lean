import ScriptHost.Text.Blank
import ScriptHost.Text.Printable
/-!
# Names of hosts

A name is written in ASCII.  Letters lose their case, and a label with characters beyond ASCII
becomes `xn--` and the differences between its characters' numbers, in a numeral system with 36
digits whose thresholds follow the sizes of the differences.  Case is folded for the Latin, Greek
and Cyrillic alphabets and for wide forms of ASCII.
-/

set_option autoImplicit false

namespace ScriptHost.Url

/-! ## Labels beyond ASCII -/

/-- The digit for a number below thirty-six. -/
def labelDigit (n : Nat) : Char :=
  Char.ofNat (if n < 26 then 'a'.toNat + n else '0'.toNat + (n - 26))

/-- The least value a digit at place `k` needs not to be the last. -/
def threshold (k bias : Nat) : Nat := if k ≤ bias then 1 else min (k - bias) 26

/-- How often a difference is divided before it is small, and what is left of it. -/
def shrink (delta k : Nat) : Nat × Nat :=
  if 455 < delta then shrink (delta / 35) (k + 36) else (delta, k)
termination_by delta

/-- The bias after a difference, when `count` characters have been written. -/
def biasAfter (delta count : Nat) (first : Bool) : Nat :=
  let delta := if first then delta / 700 else delta / 2
  let (delta, k) := shrink (delta + delta / count) 0
  k + 36 * delta / (delta + 38)

/-- The digits of a difference, the lowest first, from place `k`. -/
def differenceDigits (bias k n : Nat) : List Char :=
  let t := threshold k bias
  if n < t then [labelDigit n]
  else labelDigit (t + (n - t) % (36 - t)) :: differenceDigits bias (k + 36) ((n - t) / (36 - t))
termination_by n
decreasing_by
  have hpos : 1 ≤ threshold k bias := by unfold threshold; split <;> omega
  have := Nat.div_le_self (n - threshold k bias) (36 - threshold k bias)
  omega

/-- What has been written of a label. -/
structure LabelDraft where
  digits : List Char
  delta : Nat := 0
  bias : Nat := 72
  count : Nat

/-- Looks at one character of the label while those with number `m` are being written. -/
def LabelDraft.see (basic m : Nat) (d : LabelDraft) (c : Char) : LabelDraft :=
  if c.toNat < m then { d with delta := d.delta + 1 }
  else if c.toNat = m then
    { digits := d.digits ++ differenceDigits d.bias 36 d.delta, delta := 0
      bias := biasAfter d.delta (d.count + 1) (d.count = basic), count := d.count + 1 }
  else d

/-- Writes the characters with the numbers `ms`, in ascending order; those below `n` have been
written. -/
def LabelDraft.write (label : List Char) (basic n : Nat) (d : LabelDraft) : List Nat → LabelDraft
  | [] => d
  | m :: ms =>
    let delta := d.delta + (m - n) * (d.count + 1)
    let d := label.foldl (LabelDraft.see basic m) { d with delta }
    write label basic (m + 1) { d with delta := d.delta + 1 } ms

/-- The label in ASCII: the characters of ASCII, and what tells where the others go. -/
def asciiLabel (label : List Char) : List Char :=
  let basic := label.filter (·.toNat < 0x80)
  let others := ((label.filter (0x80 ≤ ·.toNat)).map (·.toNat)).mergeSort.eraseDups
  if others.isEmpty then label
  else
    let start := if basic.isEmpty then [] else basic ++ ['-']
    let draft : LabelDraft := { digits := start, count := basic.length }
    "xn--".toList ++ (LabelDraft.write label basic.length 0x80 draft others).digits

/-! ## Reading labels -/

/-- The number that a digit stands for. -/
def labelDigitValue? (c : Char) : Option Nat :=
  if 'a' ≤ c ∧ c ≤ 'z' then some (c.toNat - 'a'.toNat)
  else if c.isDigit then some (c.toNat - '0'.toNat + 26)
  else none

/-- Reads a difference whose digits from place `k` on count `weight` and more; what stands behind it
comes with it. -/
def readDifference (bias k weight sum : Nat) : List Char → Option (Nat × List Char)
  | [] => none
  | c :: cs =>
    match labelDigitValue? c with
    | none => none
    | some v =>
      let t := threshold k bias
      if v < t then some (sum + v * weight, cs)
      else readDifference bias (k + 36) (weight * (36 - t)) (sum + v * weight) cs

/-- Puts characters in their places, at most `fuel` of them: each difference says how many places
and numbers lie between one character and the next. -/
def placeCharacters : Nat → Nat → Nat → Nat → List Char → List Char → Option (List Char)
  | _, _, _, _, label, [] => some label
  | 0, _, _, _, _, _ => none
  | fuel + 1, n, i, bias, label, digits =>
    match readDifference bias 36 1 0 digits with
    | none => none
    | some (delta, rest) =>
      let count := label.length + 1
      let m := n + (i + delta) / count
      let place := (i + delta) % count
      if m.isValidChar then
        placeCharacters fuel m (place + 1) (biasAfter delta count (n = 0x80 && i = 0))
          (label.take place ++ Char.ofNat m :: label.drop place) rest
      else none

/-- The label that was written as digits. -/
def wideLabel? (digits : List Char) : Option (List Char) :=
  let tail := (digits.reverse.takeWhile (· ≠ '-')).reverse
  placeCharacters digits.length 0x80 0 72 (digits.take (digits.length - tail.length - 1)) tail

/-! ## Names -/

/-- The small form of a letter, and the plain form of a wide character; a soft hyphen is nothing. -/
def fold (c : Char) : List Char :=
  let n := c.toNat
  let shift (d : Nat) := [Char.ofNat (n + d)]
  if n < 0x80 then [c.toLower]
  else if n = 0xad then []
  else if 0xc0 ≤ n ∧ n ≤ 0xde ∧ n ≠ 0xd7 then shift 32
  else if (0x100 ≤ n ∧ n ≤ 0x12f ∨ 0x132 ≤ n ∧ n ≤ 0x137 ∨ 0x14a ≤ n ∧ n ≤ 0x177) ∧ n % 2 = 0 then
    shift 1
  else if (0x139 ≤ n ∧ n ≤ 0x148 ∨ 0x179 ≤ n ∧ n ≤ 0x17e) ∧ n % 2 = 1 then shift 1
  else if n = 0x178 then ['ÿ']
  else if 0x391 ≤ n ∧ n ≤ 0x3ab ∧ n ≠ 0x3a2 then shift 32
  else if 0x400 ≤ n ∧ n ≤ 0x40f then shift 80
  else if 0x410 ≤ n ∧ n ≤ 0x42f then shift 32
  else if n = 0x3002 ∨ n = 0xff61 then ['.']
  else if 0xff01 ≤ n ∧ n ≤ 0xff5e then [(Char.ofNat (n - 0xfee0)).toLower]
  else [c]

/-- The characters that no name holds. -/
def isForbidden (c : Char) : Bool :=
  if c.toNat < 0x80 then
    c.toNat ≤ 0x20 || c.toNat = 0x7f ||
      ['#', '/', ':', '<', '>', '?', '@', '[', '\\', ']', '^', '|', '%'].contains c
  else c = '\uFFFD' || Text.isBlank c || !Text.isShown c

/-- A label that begins like a written one has to be one: there is a label beyond ASCII that is
written like that. -/
def isHonest (label : List Char) : Bool :=
  match label with
  | 'x' :: 'n' :: '-' :: '-' :: digits =>
    match wideLabel? digits with
    | some wide =>
      wide.any (0x80 ≤ ·.toNat) && wide.flatMap fold == wide && !wide.any isForbidden &&
        asciiLabel wide == label
    | none => false
  | _ => true

/-- The name in ASCII, unless it holds a forbidden character. -/
def asciiName? (cs : List Char) : Option (List Char) :=
  let cs := cs.flatMap fold
  let labels := Text.cut (· == '.') cs
  if cs.any isForbidden || !labels.all isHonest then none
  else some (['.'].intercalate (labels.map asciiLabel))

end ScriptHost.Url
