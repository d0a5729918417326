/-!
# Binary floating point, as exact arithmetic

A `Binary64` is the 64 bits of a double.  Its value, when finite, is `m · 2 ^ q` for a natural
number `m` and an integer `q`, and everything here is arithmetic on those two: rounding a quotient
of naturals to the nearest double, comparing, multiplying and dividing.  No operation of the
hardware is used, so each of them can be evaluated and reasoned about like any other function on
numbers.
-/

set_option autoImplicit false

namespace ScriptHost

/-- The bits of a double. -/
structure Binary64 where
  bits : UInt64
deriving DecidableEq, Inhabited, Repr

namespace Binary64

/-! ## Fields -/

/-- Whether the sign bit is set. -/
def isNegative (x : Binary64) : Bool := x.bits >>> 63 == 1

/-- The eleven bits of the exponent. -/
def exponentField (x : Binary64) : Nat := ((x.bits >>> 52) &&& 0x7ff).toNat

/-- The fifty-two bits of the fraction. -/
def fractionField (x : Binary64) : Nat := (x.bits &&& 0xfffffffffffff).toNat

/-- Whether the bits stand for no number. -/
def isNaN (x : Binary64) : Bool := x.exponentField == 2047 && x.fractionField != 0

/-- Whether the bits stand for a number. -/
def isFinite (x : Binary64) : Bool := x.exponentField != 2047

/-- Whether the number is one of the two zeros. -/
def isZero (x : Binary64) : Bool := x.exponentField == 0 && x.fractionField == 0

/-- The integer `m` of the magnitude `m · 2 ^ q`. -/
def significand (x : Binary64) : Nat :=
  if x.exponentField = 0 then x.fractionField else x.fractionField + 0x10000000000000

/-- The exponent `q` of the magnitude `m · 2 ^ q`. -/
def exponent (x : Binary64) : Int :=
  if x.exponentField = 0 then -1074 else (x.exponentField : Int) - 1075

/-- The order in which two doubles are the same number: a NaN equals nothing, the two zeros are
equal. -/
def sameNumber (x y : Binary64) : Bool :=
  !x.isNaN && !y.isNaN && (x == y || (x.isZero && y.isZero))

/-- The magnitude as a quotient of naturals. -/
def magnitude (x : Binary64) : Nat × Nat :=
  match x.exponent with
  | .ofNat e => (x.significand <<< e, 1)
  | .negSucc e => (x.significand, 1 <<< (e + 1))

/-- Whether the number is exactly the integer `n`. -/
def isInteger (x : Binary64) (n : Int) : Bool :=
  let (num, den) := x.magnitude
  x.isFinite && num == n.natAbs * den && (num == 0 || x.isNegative == decide (n < 0))

/-! ## Rounding -/

/-- The bits that stand for no number. -/
def nan : Binary64 := ⟨0x7ff8000000000000⟩

/-- The bits of a magnitude, with a sign. -/
def signed (negative : Bool) (bits : Nat) : Binary64 :=
  ⟨(if negative then 0x8000000000000000 + bits else bits).toUInt64⟩

/-- Zero with a sign. -/
def zero (negative : Bool) : Binary64 := signed negative 0

/-- Infinity with a sign. -/
def infinity (negative : Bool) : Binary64 := signed negative (2047 <<< 52)

/-- The integer nearest to `num / den`; a half goes to the even neighbour. -/
def roundQuotient (num den : Nat) : Nat :=
  let floor := num / den
  let twice := 2 * (num % den)
  if twice < den then floor
  else if den < twice then floor + 1
  else if floor % 2 = 0 then floor else floor + 1

/-- `num / (den · 2 ^ q)` as a quotient of naturals. -/
def shifted (num den : Nat) : Int → Nat × Nat
  | .ofNat e => (num, den <<< e)
  | .negSucc e => (num <<< (e + 1), den)

/-- The exponent of the double nearest to `num / den`: the one that leaves 53 bits before the point,
or the least one there is. -/
def roundingExponent (num den : Nat) : Int :=
  let guess : Int := (Nat.log2 num : Int) - Nat.log2 den - 52
  let (n, d) := shifted num den guess
  let exact := if n < d <<< 52 then guess - 1 else guess
  max exact (-1074)

/-- The double nearest to `num / den`, ties to even; infinite when the quotient is too large. -/
def ofQuotient (negative : Bool) (num den : Nat) : Binary64 :=
  if num = 0 then zero negative
  else
    let q := roundingExponent num den
    let (n, d) := shifted num den q
    let m := roundQuotient n d
    let bits := (q + 1074).toNat <<< 52 + m
    if 2047 <<< 52 ≤ bits then infinity negative else signed negative bits

/-- The double that is nearest to a number. -/
def ofNat (n : Nat) : Binary64 := ofQuotient false n 1

/-- The number with the other sign. -/
def neg (x : Binary64) : Binary64 := ⟨x.bits ^^^ 0x8000000000000000⟩

/-- The rounded product of two finite magnitudes. -/
def mulMagnitude (x y : Binary64) : Binary64 :=
  ofQuotient false (x.magnitude.1 * y.magnitude.1) (x.magnitude.2 * y.magnitude.2)

/-- The rounded quotient of two finite magnitudes. -/
def divMagnitude (x y : Binary64) : Binary64 :=
  ofQuotient false (x.magnitude.1 * y.magnitude.2) (x.magnitude.2 * y.magnitude.1)

/-! ## Scaling by powers of ten -/

/-- The largest power of ten that is a double. -/
def maxPowerOfTen : Nat := 308

/-- `x · 10 ^ e` for a magnitude `x` below `2 ^ 64`, rounded after each factor: a power of ten up to
`10 ^ 308` is one factor, and a smaller exponent first gives up `10 ^ 308` at a time.  Two such
steps bring any `x` to zero, so three are enough.  `none` when the result is too large. -/
def scaleTen : Nat → Binary64 → Int → Option Binary64
  | 0, x, _ => some x
  | fuel + 1, x, e =>
    if e.natAbs ≤ maxPowerOfTen then
      let power := ofNat (Nat.pow 10 e.natAbs)
      if 0 ≤ e then
        let y := mulMagnitude x power
        if y.isFinite then some y else none
      else some (divMagnitude x power)
    else if x.isZero then some x
    else if 0 ≤ e then none
    else scaleTen fuel (divMagnitude x (ofNat (Nat.pow 10 maxPowerOfTen))) (e + maxPowerOfTen)

end Binary64

end ScriptHost
