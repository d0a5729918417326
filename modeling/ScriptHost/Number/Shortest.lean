import ScriptHost.Number.Binary64
/-!
# The shortest decimal of a double

Among the decimals that read back as a given double, the text of a double uses one with the fewest
digits, and of those the nearest.  The decimals with `k` digits near `x` form a grid; if any point
of the grid reads back as `x`, then one of the two neighbours of `x` on the grid does, so it is
enough to try those two for `k = 1, 2, …`.  Seventeen digits always suffice.
-/

set_option autoImplicit false

namespace ScriptHost

/-- The decimal `digits · 10 ^ exponent`. -/
structure Decimal where
  digits : Nat
  exponent : Int
deriving DecidableEq, Repr

namespace Binary64

/-- A quotient of naturals. -/
structure Quotient where
  num : Nat
  den : Nat

/-- Whether one quotient is at most another. -/
def Quotient.le (a b : Quotient) : Bool := a.num * b.den ≤ b.num * a.den

/-- Whether one quotient is less than another. -/
def Quotient.lt (a b : Quotient) : Bool := a.num * b.den < b.num * a.den

/-- `m · 2 ^ q`. -/
def Quotient.dyadic (m : Nat) : Int → Quotient
  | .ofNat e => ⟨m <<< e, 1⟩
  | .negSucc e => ⟨m, 1 <<< (e + 1)⟩

/-- `m · 10 ^ e`. -/
def Quotient.decimal (m : Nat) : Int → Quotient
  | .ofNat e => ⟨m * Nat.pow 10 e, 1⟩
  | .negSucc e => ⟨m, Nat.pow 10 (e + 1)⟩

/-- The reals that round to a positive double: from half way to the double below, up to half way to
the double above, ends included when the significand is even. -/
structure Neighbourhood where
  low : Quotient
  high : Quotient
  closed : Bool

/-- The reals that round to a double. -/
def neighbourhood (x : Binary64) : Neighbourhood :=
  let m := x.significand
  let q := x.exponent
  { low :=
      if m = 0x10000000000000 ∧ q > -1074 then .dyadic (4 * m - 1) (q - 2)
      else .dyadic (2 * m - 1) (q - 1)
    high := .dyadic (2 * m + 1) (q - 1)
    closed := m % 2 = 0 }

/-- Whether a quotient is one of these reals. -/
def Neighbourhood.contains (n : Neighbourhood) (r : Quotient) : Bool :=
  if n.closed then n.low.le r && r.le n.high else n.low.lt r && r.lt n.high

/-- The number of digits before the decimal point: the least `p` with `num / den < 10 ^ p`, found
from the estimate `p - 1`, `p` or `p + 1` that the binary logarithms give. -/
def pointPosition (r : Quotient) : Int :=
  let bits : Int := (Nat.log2 r.num : Int) - Nat.log2 r.den
  let guess : Int := (bits * 1233).fdiv 4096
  if r.lt (.decimal 1 (guess - 1)) then guess - 1
  else if r.lt (.decimal 1 guess) then guess
  else if r.lt (.decimal 1 (guess + 1)) then guess + 1
  else guess + 2

/-- The neighbour of `r` on the grid with step `10 ^ e` that lies in the neighbourhood; of two, the
nearer one, and of two equally near ones the even one. -/
def gridPoint? (n : Neighbourhood) (r : Quotient) (e : Int) : Option Nat :=
  let (num, den) := match e with
    | .ofNat e => (r.num, r.den * Nat.pow 10 e)
    | .negSucc e => (r.num * Nat.pow 10 (e + 1), r.den)
  let below := num / den
  let above := below + 1
  match below != 0 && n.contains (.decimal below e), n.contains (.decimal above e) with
  | true, true => some (roundQuotient num den)
  | true, false => some below
  | false, true => some above
  | false, false => none

/-- The digits without the zeros at their end, which move into the exponent. -/
def trimZeros : Nat → Nat → Int → Decimal
  | 0, digits, e => ⟨digits, e⟩
  | fuel + 1, digits, e =>
    if digits % 10 = 0 ∧ digits ≠ 0 then trimZeros fuel (digits / 10) (e + 1) else ⟨digits, e⟩

/-- The shortest decimal that reads back as the magnitude of a finite double. -/
def shortest (x : Binary64) : Decimal :=
  if x.isZero then ⟨0, 0⟩
  else
    let n := x.neighbourhood
    let r : Quotient := .dyadic x.significand x.exponent
    let p := pointPosition r
    let found := (List.range 17).findSome? fun (k : Nat) =>
      let e := p - ((k : Int) + 1)
      (gridPoint? n r e).map fun digits => trimZeros 17 digits e
    found.getD ⟨0, 0⟩

end Binary64

/-! ## Where the point goes -/

/-- How a decimal is written: positional while the point lies within `leadingZeros` zeros in front
of the digits and `places` places behind the first one, otherwise with an exponent. -/
structure DecimalLayout where
  leadingZeros : Int
  places : Int

/-- Numbers in JSON text are positional from `10 ^ -5` up to `10 ^ 16`. -/
def jsonLayout : DecimalLayout := ⟨-5, 16⟩

namespace Decimal

/-- As many zeros. -/
def zeros (n : Nat) : String := String.ofList (List.replicate n '0')

/-- An exponent as it is written, with its sign. -/
def exponentText (e : Int) : String :=
  "e" ++ (if e < 0 then "-" else "+") ++ toString e.natAbs

/-- The text of a positive decimal; a whole number keeps a zero behind its point, and one with an
exponent does not. -/
def format (layout : DecimalLayout) (d : Decimal) : String :=
  let text := toString d.digits
  let count : Int := text.length
  let point := count + d.exponent
  if 0 ≤ d.exponent ∧ point ≤ layout.places then
    text ++ zeros d.exponent.toNat ++ ".0"
  else if 0 < point ∧ point ≤ layout.places then
    String.ofList (text.toList.take point.toNat) ++ "." ++
      String.ofList (text.toList.drop point.toNat)
  else if layout.leadingZeros < point ∧ point ≤ 0 then
    "0." ++ zeros (-point).toNat ++ text
  else
    let first := String.ofList (text.toList.take 1)
    let rest := String.ofList (text.toList.drop 1)
    first ++ (if rest = "" then "" else "." ++ rest) ++ exponentText (point - 1)

end Decimal

/-- The text of a finite double. -/
def Binary64.text (layout : DecimalLayout) (x : Binary64) : String :=
  (if x.isNegative then "-" else "") ++ (if x.isZero then "0.0" else x.shortest.format layout)

end ScriptHost
