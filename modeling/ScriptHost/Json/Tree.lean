import ScriptHost.Json.Basic
import ScriptHost.Text.Hex
/-!
# JSON text as a tree

Scanning a text gives a tree that follows its grammar from left to right for as long as it can.
Where the text goes wrong the tree ends in a break, which says whether the text was malformed there
or merely over too early.  Fields keep their order and their duplicates.

What only matters once a part is *used* does not end the tree: a number too large for a double, a
string with half a surrogate pair, any depth of nesting.  A reader that skips a field it does not
know skips all of that too, and a reader that wants the value finds the fault in its place.
-/

set_option autoImplicit false

namespace ScriptHost.Json

/-- What is wrong with a text: something stands there that may not, or nothing does. -/
inductive Break where
  | malformed
  | endOfText
deriving DecidableEq, Repr

/-- A number literal, as its digits. -/
structure Numeral where
  negative : Bool
  whole : List Nat
  fraction : List Nat
  exponent : Option Int
  /-- Whether the literal has a fraction or an exponent. -/
  real : Bool

/-- What a text comes to, up to its first break. -/
inductive Tree where
  | null
  | bool (b : Bool)
  /-- `none` when the literal has no value. -/
  | int (n : Int)
  | float (x : Option Binary64)
  | text (s : Except Break String)
  /-- Items, and what is wrong with the list behind them. -/
  | list (items : List Tree) (fault : Option Break)
  | record (fields : List (Except Break String × Tree)) (fault : Option Break)
  /-- What is wrong for a reader of this part, and for one that skips it. -/
  | broken (reading skipping : Break)

/-! ## Numbers -/

namespace Numeral

/-- The digits that a significand of 64 bits can hold. -/
def fits (significand digit : Nat) : Bool := significand * 10 + digit ≤ 0xffffffffffffffff

/-- The whole digits: from the first that does not fit, they only count as powers of ten. -/
def wholePart : List Nat → Nat → Nat × Nat
  | [], s => (s, 0)
  | d :: rest, s => if fits s d then wholePart rest (s * 10 + d) else (s, rest.length + 1)

/-- The digits behind the point: from the first that does not fit, they are left out. -/
def fractionPart : List Nat → Nat → Nat → Nat × Nat
  | [], s, places => (s, places)
  | d :: rest, s, places =>
    if fits s d then fractionPart rest (s * 10 + d) (places + 1) else (s, places)

/-- The largest exponent that is counted exactly. -/
def exponentLimit : Nat := 0x7fffffff

/-- An exponent that is far beyond all doubles is cut off, which does not change the value. -/
def saturate (e : Int) : Int := max (-0x80000000) (min e exponentLimit)

/-- The double that the literal stands for; `none` when it is too large.  The significand is rounded
first and the power of ten applied afterwards. -/
def toFloat? (n : Numeral) : Option Binary64 :=
  let (s, skipped) := wholePart n.whole 0
  let (s, places) := fractionPart n.fraction s 0
  let scale : Int := (skipped : Int) - places
  let sign (x : Binary64) := if n.negative then x.neg else x
  match n.exponent with
  | none => (Binary64.scaleTen 4 (.ofNat s) scale).map sign
  | some e =>
    if e.natAbs ≤ exponentLimit then
      (Binary64.scaleTen 4 (.ofNat s) (saturate (scale + e))).map sign
    else if s ≠ 0 ∧ 0 < e then none
    else some (sign (.zero false))

/-- An integer literal in range is an integer, except that `-0` is a float. -/
def toTree (n : Numeral) : Tree :=
  let (s, skipped) := wholePart n.whole 0
  if n.real || skipped ≠ 0 then .float n.toFloat?
  else if n.negative then
    if s ≠ 0 ∧ s ≤ 0x8000000000000000 then .int (-s)
    else .float ((Binary64.scaleTen 4 (.ofNat s) 0).map Binary64.neg)
  else .int s

end Numeral

/-- The value of a digit. -/
def digit? (c : Char) : Option Nat := if c.isDigit then some (c.toNat - '0'.toNat) else none

/-- The digits at the start of a text. -/
def digits : List Char → List Nat × List Char
  | [] => ([], [])
  | c :: rest =>
    match digit? c with
    | some d => let (ds, rest') := digits rest; (d :: ds, rest')
    | none => ([], c :: rest)

/-- A part of the grammar and the text behind it; no text behind it means that the part ends in a
break. -/
abbrev Scan (α : Type) := α × Option (List Char)

/-- Nothing can be read from here on. -/
def stop (b : Break) : Scan Tree := (.broken b b, none)

/-- A number that breaks off: whoever skips it takes that for malformed, too. -/
def stopNumber : List Char → Scan Tree
  | [] => (.broken .endOfText .malformed, none)
  | _ :: _ => stop .malformed

/-- The number that digits are written for, the most significant first. -/
def ofDigits (ds : List Nat) : Nat := ds.foldl (fun n d => n * 10 + d) 0

/-- What may follow the digits of a number: an exponent. -/
def scanExponent (n : Numeral) (cs : List Char) : Scan Tree :=
  let finish (e : Option Int) (real : Bool) (rest : List Char) : Scan Tree :=
    (Numeral.toTree { n with exponent := e, real := n.real || real }, some rest)
  match cs with
  | 'e' :: rest | 'E' :: rest =>
    let (negative, rest) := match rest with
      | '-' :: rest => (true, rest)
      | '+' :: rest => (false, rest)
      | _ => (false, rest)
    match digits rest with
    | ([], rest) => stopNumber rest
    | (ds, rest) =>
      let e : Int := ofDigits ds
      finish (some (if negative then -e else e)) true rest
  | _ => finish none false cs

/-- What may follow the whole digits of a number: a point, an exponent, or neither. -/
def scanFraction (n : Numeral) : List Char → Scan Tree
  | '.' :: rest =>
    match digits rest with
    | ([], rest) => stopNumber rest
    | (ds, rest) => scanExponent { n with fraction := ds, real := true } rest
  | cs => scanExponent n cs

/-- A number behind its sign. -/
def scanNumber (negative : Bool) (cs : List Char) : Scan Tree :=
  match digits cs with
  | ([], rest) => stopNumber rest
  | (0 :: _ :: _, _) => stop .malformed
  | (ds, rest) => scanFraction ⟨negative, ds, [], none, false⟩ rest

/-! ## Strings -/

/-- The number that four hexadecimal digits are written for. -/
def hex4? (a b c d : Char) : Option Nat := do
  return (((← Text.hexValue? a) * 16 + (← Text.hexValue? b)) * 16 + (← Text.hexValue? c)) * 16 +
    (← Text.hexValue? d)

/-- How many bytes a text takes in UTF-8. -/
def utf8Size (cs : List Char) : Nat := cs.foldl (fun n c => n + c.utf8Size) 0

/-- Why four hexadecimal digits cannot be read: the text is over when fewer than four bytes are
left. -/
def hexBreak (cs : List Char) : Break := if utf8Size (cs.take 4) < 4 then .endOfText else .malformed

/-- Whether a number is the first half of a surrogate pair. -/
def isHigh (n : Nat) : Bool := 0xd800 ≤ n && n ≤ 0xdbff

/-- Whether a number is the second half of a surrogate pair. -/
def isLow (n : Nat) : Bool := 0xdc00 ≤ n && n ≤ 0xdfff

/-- The character that an escaped letter stands for. -/
def escaped? (c : Char) : Option Char :=
  match c with
  | '"' => some '"'
  | '\\' => some '\\'
  | '/' => some '/'
  | 'b' => some '\x08'
  | 'f' => some '\x0c'
  | 'n' => some '\n'
  | 'r' => some '\r'
  | 't' => some '\t'
  | _ => none

/-- Why the second half of a surrogate pair is missing. -/
def pairBreak : List Char → Break
  | [] | ['\\'] => .endOfText
  | '\\' :: 'u' :: rest => hexBreak rest
  | _ => .malformed

/-- What stands next in a string literal. -/
inductive Piece where
  | closed (rest : List Char)
  | char (c : Char) (rest : List Char)
  /-- Half a surrogate pair, and why it has no other half. -/
  | half (why : Break) (rest : List Char)
  | stop (b : Break)

/-- A first half of a surrogate pair and the text behind it. -/
def pairPiece (high : Nat) (rest : List Char) : Piece :=
  match rest with
  | '\\' :: 'u' :: a :: b :: c :: d :: rest' =>
    match hex4? a b c d with
    | some low =>
      if isLow low then
        .char (Char.ofNat ((high - 0xd800) * 0x400 + (low - 0xdc00) + 0x10000)) rest'
      else .half .malformed rest
    | none => .half .malformed rest
  | _ => .half (pairBreak rest) rest

/-- The next piece of a text in quotes: a character, an escape or the closing quote. -/
def piece : List Char → Piece
  | [] => .stop .endOfText
  | '"' :: rest => .closed rest
  | '\\' :: 'u' :: a :: b :: c :: d :: rest =>
    match hex4? a b c d with
    | none => .stop .malformed
    | some n =>
      if isLow n then .half .malformed rest
      else if isHigh n then pairPiece n rest
      else .char (Char.ofNat n) rest
  | '\\' :: 'u' :: rest => .stop (hexBreak rest)
  | '\\' :: c :: rest =>
    match escaped? c with
    | some e => .char e rest
    | none => .stop .malformed
  | ['\\'] => .stop .endOfText
  | c :: rest => if c.toNat < 32 then .stop .malformed else .char c rest

/-- The text behind a piece. -/
def Piece.rest : Piece → List Char
  | .closed rest | .char _ rest | .half _ rest => rest
  | .stop _ => []

theorem length_rest_pairPiece (high : Nat) (rest : List Char) :
    (pairPiece high rest).rest.length ≤ rest.length := by
  unfold pairPiece
  repeat' split
  all_goals simp [Piece.rest]
  all_goals omega

theorem length_rest_piece (c : Char) (cs : List Char) :
    (piece (c :: cs)).rest.length < (c :: cs).length := by
  have pair (high : Nat) (rest : List Char) (h : rest.length < (c :: cs).length) :
      (pairPiece high rest).rest.length < (c :: cs).length :=
    Nat.lt_of_le_of_lt (length_rest_pairPiece high rest) h
  unfold piece
  repeat' split
  any_goals apply pair
  all_goals simp_all [Piece.rest]
  all_goals omega

/-- A string behind its opening mark: its value, and the text behind its closing mark.  `fault` is
the first thing wrong with the value that does not end the string. -/
def scanText (fault : Option Break) (acc : List Char) (cs : List Char) :
    Except Break String × Except Break (List Char) :=
  let ended (b : Break) : Except Break String × Except Break (List Char) :=
    (.error (fault.getD b), .error b)
  match cs with
  | [] => ended .endOfText
  | c :: cs' =>
    match _h : piece (c :: cs') with
    | .stop b => ended b
    | .closed rest =>
      (match fault with | some b => .error b | none => .ok (String.ofList acc.reverse), .ok rest)
    | .char d rest => scanText fault (d :: acc) rest
    | .half why rest => scanText (fault.or (some why)) acc rest
termination_by cs.length
decreasing_by
  all_goals
    have := length_rest_piece c cs'
    rw [_h] at this
    simpa [Piece.rest] using this

/-! ## Values -/

/-- The characters that may stand between tokens. -/
def isJsonBlank (c : Char) : Bool := c = ' ' || c = '\n' || c = '\t' || c = '\r'

/-- The text without the blanks in front of it. -/
def skipBlank (cs : List Char) : List Char := cs.dropWhile isJsonBlank

/-- The rest of a word whose first letter has been read. -/
def scanWord (value : Tree) : List Char → List Char → Scan Tree
  | [], cs => (value, some cs)
  | _ :: _, [] => stop .endOfText
  | w :: word, c :: cs => if w = c then scanWord value word cs else stop .malformed

mutual

/-- Reads one value.  Of two calls in a row one reads at least one character, so fuel above twice
the length of the text is never used up. -/
def scanValue : Nat → List Char → Scan Tree
  | 0, _ => stop .endOfText
  | fuel + 1, cs =>
    match skipBlank cs with
    | [] => stop .endOfText
    | 'n' :: rest => scanWord .null ['u', 'l', 'l'] rest
    | 't' :: rest => scanWord (.bool true) ['r', 'u', 'e'] rest
    | 'f' :: rest => scanWord (.bool false) ['a', 'l', 's', 'e'] rest
    | '-' :: rest => scanNumber true rest
    | '"' :: rest =>
      match scanText none [] rest with
      | (s, .ok rest) => (.text s, some rest)
      | (.error reading, .error skipping) => (.broken reading skipping, none)
      | (.ok _, .error b) => stop b
    | '[' :: rest => scanItems fuel [] rest
    | '\x7b' :: rest => scanFields fuel [] rest
    | c :: rest => if c.isDigit then scanNumber false (c :: rest) else stop .malformed

/-- The items of a list behind its opening bracket, after those already read (the last one
first). -/
def scanItems : Nat → List Tree → List Char → Scan Tree
  | 0, items, _ => (.list items.reverse (some .endOfText), none)
  | fuel + 1, items, cs =>
    let close (b : Break) : Scan Tree := (.list items.reverse (some b), none)
    let item (cs : List Char) : Scan Tree :=
      match scanValue fuel cs with
      | (t, some rest) => scanItems fuel (t :: items) rest
      | (t, none) => (.list (t :: items).reverse none, none)
    match skipBlank cs with
    | [] => close .endOfText
    | ']' :: rest => (.list items.reverse none, some rest)
    | c :: rest =>
      if items.isEmpty then item (c :: rest)
      else if c = ',' then
        match skipBlank rest with
        | ']' :: _ => close .malformed
        | rest => item rest
      else close .malformed

/-- The fields of an object behind its opening brace, after those already read (the last one
first). -/
def scanFields : Nat → List (Except Break String × Tree) → List Char → Scan Tree
  | 0, fields, _ => (.record fields.reverse (some .endOfText), none)
  | fuel + 1, fields, cs =>
    let close (b : Break) : Scan Tree := (.record fields.reverse (some b), none)
    let last (name : Except Break String) (t : Tree) : Scan Tree :=
      (.record ((name, t) :: fields).reverse none, none)
    let field (cs : List Char) : Scan Tree :=
      match scanText none [] cs with
      | (name, .error b) => last name (.broken b b)
      | (name, .ok rest) =>
        match skipBlank rest with
        | [] => last name (.broken .endOfText .endOfText)
        | ':' :: rest =>
          match scanValue fuel rest with
          | (t, some rest) => scanFields fuel ((name, t) :: fields) rest
          | (t, none) => last name t
        | _ => last name (.broken .malformed .malformed)
    match skipBlank cs with
    | [] => close .endOfText
    | '\x7d' :: rest => (.record fields.reverse none, some rest)
    | '"' :: rest => if fields.isEmpty then field rest else close .malformed
    | ',' :: rest =>
      if fields.isEmpty then close .malformed
      else
        match skipBlank rest with
        | [] => close .endOfText
        | '"' :: rest => field rest
        | _ => close .malformed
    | _ => close .malformed

end

/-- The tree of a whole text, and what is wrong behind it. -/
def scan (text : String) : Tree × Option Break :=
  let cs := text.toList
  match scanValue (2 * cs.length + 2) cs with
  | (t, none) => (t, none)
  | (t, some rest) => (t, if (skipBlank rest).isEmpty then none else some .malformed)

mutual

/-- The tree of a value that has been read already. -/
def toTree : Json → Tree
  | .null => .null
  | .bool b => .bool b
  | .int n => .int n
  | .float x => .float (some x)
  | .str s => .text (.ok s)
  | .arr items => .list (itemTrees items) none
  | .obj fields => .record (fieldTrees fields) none

/-- The trees of items that have been read already. -/
def itemTrees : List Json → List Tree
  | [] => []
  | item :: rest => item.toTree :: itemTrees rest

/-- The trees of fields that have been read already. -/
def fieldTrees : List (String × Json) → List (Except Break String × Tree)
  | [] => []
  | (name, value) :: rest => (.ok name, value.toTree) :: fieldTrees rest

end

end ScriptHost.Json
