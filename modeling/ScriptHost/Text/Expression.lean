import ScriptHost.Text.Blank
import ScriptHost.Text.Letter
/-!
# Regular expressions

An expression with named groups, what it finds in a text, and how it is written.  An expression may
match at one place in several ways, which are listed in the order of preference: the first
alternative before the second, and more repetitions before fewer unless the repetition is marked as
lazy.  The first way at the first place where there is one counts.

What can be read here is a part of what can be written: there are no flags, no edges of words, no
counted repetitions and no classes of Unicode by name.  Whoever depends on what cannot be read takes
a library of regular expressions as a parameter (`Regex`), for which this one can stand.
-/

set_option autoImplicit false

namespace ScriptHost

/-- A regular expression. -/
inductive Expression where
  | empty
  | one (accepts : Char → Bool)
  | start
  | stop
  | seq (first second : Expression)
  | either (first second : Expression)
  /-- Once or more often. -/
  | several (e : Expression) (isLazy : Bool)
  | group (name : String) (e : Expression)

namespace Expression

/-! ## Matching -/

/-- A place in a text, with what the groups have captured on the way to it. -/
structure Spot where
  atStart : Bool
  rest : List Char
  captured : List (String × List Char) := []

/-- More repetitions, of which each takes at least one character and at most `n` are needed. -/
def repeated (once : Spot → List Spot) (isLazy : Bool) : Nat → Spot → List Spot
  | 0, s => [s]
  | n + 1, s =>
    let more :=
      ((once s).filter fun t => t.rest.length < s.rest.length).flatMap (repeated once isLazy n)
    if isLazy then s :: more else more ++ [s]

/-- Repetitions, of which the first may take nothing and is the last one then. -/
def repeatedFrom (once : Spot → List Spot) (isLazy : Bool) (s : Spot) : List Spot :=
  (once s).flatMap fun t =>
    if t.rest.length < s.rest.length then repeated once isLazy t.rest.length t else [t]

/-- Where a match that begins at a place can end, the preferred end first. -/
def ends : Expression → Spot → List Spot
  | empty, s => [s]
  | one accepts, s =>
    match s.rest with
    | [] => []
    | c :: rest => if accepts c then [{ s with atStart := false, rest }] else []
  | start, s => if s.atStart then [s] else []
  | stop, s => if s.rest.isEmpty then [s] else []
  | seq a b, s => (a.ends s).flatMap b.ends
  | either a b, s => a.ends s ++ b.ends s
  | several e isLazy, s => repeatedFrom e.ends isLazy s
  | group name e, s => (e.ends s).map fun t =>
    { t with captured := (name, s.rest.take (s.rest.length - t.rest.length)) :: t.captured }

/-- What the groups capture in a text, if the expression matches anywhere in it; a group that is
matched several times captures the last match. -/
def find? (e : Expression) (cs : List Char) : Option (List (String × List Char)) :=
  go true cs
where
  go (atStart : Bool) : List Char → Option (List (String × List Char))
    | [] => ((e.ends ⟨atStart, [], []⟩).head?).map (·.captured)
    | c :: cs =>
      match e.ends ⟨atStart, c :: cs, []⟩ with
      | s :: _ => some s.captured
      | [] => go false cs

/-! ## Sets of characters -/

/-- Whether a character means something else than itself in an expression. -/
def isSpecial (c : Char) : Bool := "\\.+*?()|[]\x7b\x7d^$#&-~".toList.contains c

/-- Decimal digits come in tens; here is the zero of each. -/
def zeros : List Nat :=
  [0x30, 0x660, 0x6f0, 0x7c0, 0x966, 0x9e6, 0xa66, 0xae6, 0xb66, 0xbe6, 0xc66, 0xce6, 0xd66, 0xde6,
    0xe50, 0xed0, 0xf20, 0x1040, 0x1090, 0x17e0, 0x1810, 0x1946, 0x19d0, 0x1a80, 0x1a90, 0x1b50,
    0x1bb0, 0x1c40, 0x1c50, 0xa620, 0xa8d0, 0xa900, 0xa9d0, 0xa9f0, 0xaa50, 0xabf0, 0xff10, 0x104a0,
    0x10d30, 0x11066, 0x110f0, 0x11136, 0x111d0, 0x112f0, 0x11450, 0x114d0, 0x11650, 0x116c0,
    0x11730, 0x118e0, 0x11950, 0x11c50, 0x11d50, 0x11da0, 0x11f50, 0x16a60, 0x16ac0, 0x16b50,
    0x1d7ce, 0x1d7d8, 0x1d7e2, 0x1d7ec, 0x1d7f6, 0x1e140, 0x1e2f0, 0x1e4f0, 0x1e950, 0x1fbf0]

/-- Whether a character is a decimal digit of any script. -/
def isDigit (c : Char) : Bool := zeros.any fun z => z ≤ c.toNat && c.toNat ≤ z + 9

/-- Whether a character can be a part of a word. -/
def isWordChar (c : Char) : Bool :=
  c = '_' || Text.isLetter c || isDigit c || Text.isIn Text.extendingRanges c

/-- The set that an escaped letter stands for. -/
def namedSet? : Char → Option (Char → Bool)
  | 'd' => some isDigit
  | 'D' => some fun c => !isDigit c
  | 'w' => some isWordChar
  | 'W' => some fun c => !isWordChar c
  | 's' => some Text.isBlank
  | 'S' => some fun c => !Text.isBlank c
  | _ => none

/-- The character that an escaped character stands for. -/
def escaped? (c : Char) : Option Char :=
  match c with
  | 'n' => some '\n'
  | 't' => some '\t'
  | 'r' => some '\r'
  | 'f' => some (Char.ofNat 12)
  | 'v' => some (Char.ofNat 11)
  | 'a' => some (Char.ofNat 7)
  | _ => if c.toNat < 0x80 && !c.isAlphanum && c ≠ '<' && c ≠ '>' then some c else none

/-! ## Reading -/

/-- A reader of written expressions: the text that is left and the names of the groups so far. -/
abbrev Reader := StateT (List Char × List String) Option

/-- The next character, which is not read yet. -/
def peek : Reader (Option Char) := do return (← get).1.head?

/-- Reads one character, whatever it is. -/
def advance : Reader Unit := modify fun (cs, names) => (cs.tail, names)

/-- Reads a character, which there must be. -/
def next : Reader Char := do
  let some c ← peek | failure
  advance
  return c

/-- Reads just this character. -/
def expect (c : Char) : Reader Unit := do
  guard ((← next) = c)

/-- A single character between brackets, which a range can begin or end with. -/
def readSetChar : Reader Char := do
  match ← next with
  | '\\' => do
    let some c := escaped? (← next) | failure
    return c
  | '[' => failure
  | c => return c

/-- Behind an escaped set, a `-` can only be the last member: a set is no end of a range. -/
def noRange : Reader Unit := do
  if let '-' :: c :: _ := (← get).1 then guard (c = ']')

/-- What stands between brackets, up to the closing one: single characters, ranges, escaped sets and
sets between brackets. -/
def readSet : Nat → (Char → Bool) → Reader (Char → Bool)
  | 0, _ => failure
  | fuel + 1, accepts => do
    match (← get).1 with
    | ']' :: _ => advance; return accepts
    | '[' :: '^' :: _ => do
      advance; advance
      let inner ← readSetFirst fuel
      readSet fuel fun c => accepts c || !inner c
    | '[' :: ':' :: _ => failure
    | '[' :: _ => do
      advance
      let inner ← readSetFirst fuel
      readSet fuel fun c => accepts c || inner c
    | '&' :: '&' :: _ => failure
    | '-' :: '-' :: _ => failure
    | '~' :: '~' :: _ => failure
    | '\\' :: e :: _ =>
      match namedSet? e with
      | some set => do
        advance; advance
        noRange
        readSet fuel fun c => accepts c || set c
      | none => readRange fuel accepts
    | _ => readRange fuel accepts
where
  /-- A closing bracket that comes first is an ordinary member. -/
  readSetFirst (fuel : Nat) : Reader (Char → Bool) := do
    if (← peek) = some ']' then
      advance
      readSet fuel (· = ']')
    else readSet fuel fun _ => false
  readRange (fuel : Nat) (accepts : Char → Bool) : Reader (Char → Bool) := do
    let low ← readSetChar
    match (← get).1 with
    | '-' :: ']' :: _ => readSet fuel fun c => accepts c || c = low
    | '-' :: '-' :: _ => readSet fuel fun c => accepts c || c = low
    | '-' :: _ => do
      advance
      let high ← readSetChar
      if low.toNat ≤ high.toNat then
        readSet fuel fun c => accepts c || (low.toNat ≤ c.toNat && c.toNat ≤ high.toNat)
      else failure
    | _ => readSet fuel fun c => accepts c || c = low

/-- Something or nothing, whichever is preferred. -/
def optional (e : Expression) (isLazy : Bool) : Expression :=
  if isLazy then .either .empty e else .either e .empty

/-- The marks behind something that may be repeated. -/
def readRepeats : Nat → Expression → Reader Expression
  | 0, e => return e
  | fuel + 1, e => do
    match ← peek with
    | some '*' => do
      advance
      let l ← isLazy
      readRepeats fuel (optional (.several e l) l)
    | some '+' => do
      advance
      readRepeats fuel (.several e (← isLazy))
    | some '?' => do
      advance
      readRepeats fuel (optional e (← isLazy))
    | some '\x7b' => failure
    | _ => return e
where
  isLazy : Reader Bool := do
    if (← peek) = some '?' then
      advance
      return true
    else return false

/-- The name of a group, up to the closing angle bracket. -/
def readName (isName : List Char → Bool) : Reader String := do
  let (cs, names) ← get
  let some (name, rest) := Text.splitFirst (· = '>') cs | failure
  let text := String.ofList name
  guard (isName name && !names.contains text)
  set (rest, text :: names)
  return text

mutual

/-- Sequences with `|` between them. -/
def readAlternatives (isName : List Char → Bool) : Nat → Reader Expression
  | 0 => failure
  | fuel + 1 => do
    let first ← readSequence isName fuel
    if (← peek) = some '|' then
      advance
      return .either first (← readAlternatives isName fuel)
    else return first

/-- Items, up to an end, a `|` or a closing bracket. -/
def readSequence (isName : List Char → Bool) : Nat → Reader Expression
  | 0 => failure
  | fuel + 1 => do
    match ← peek with
    | none | some '|' | some ')' => return .empty
    | some _ => do
      let first ← readRepeats fuel (← readItem isName fuel)
      return .seq first (← readSequence isName fuel)

/-- One item, without what repeats it: a character, a set of characters, a mark or a group. -/
def readItem (isName : List Char → Bool) : Nat → Reader Expression
  | 0 => failure
  | fuel + 1 => do
    match ← next with
    | '.' => return .one (· ≠ '\n')
    | '^' => return .start
    | '$' => return .stop
    | '[' => do
      if (← peek) = some '^' then
        advance
        let set ← readSet.readSetFirst fuel
        return .one fun c => !set c
      else return .one (← readSet.readSetFirst fuel)
    | '\\' => do
      let e ← next
      match namedSet? e with
      | some set => return .one set
      | none => do
        let some c := escaped? e | failure
        return .one (· = c)
    | '(' => do
      let e ← match (← get).1 with
        | '?' :: ':' :: _ => do
          advance; advance
          readAlternatives isName fuel
        | '?' :: 'P' :: '<' :: _ => do
          advance; advance; advance
          let name ← readName isName
          pure (.group name (← readAlternatives isName fuel))
        | '?' :: '<' :: _ => do
          advance; advance
          let name ← readName isName
          pure (.group name (← readAlternatives isName fuel))
        | '?' :: _ => failure
        | _ => readAlternatives isName fuel
      expect ')'
      return e
    | '*' | '+' | '?' | '\x7b' => failure
    | c => return .one (· = c)

end

/-- The expression that a text writes, with groups whose names satisfy `isName`; none if it writes
none. -/
def read? (isName : List Char → Bool) (cs : List Char) : Option Expression := do
  let (e, rest, _) ← (readAlternatives isName (4 * cs.length + 4)).run (cs, [])
  guard rest.isEmpty
  return e

/-- How text is written that stands for itself. -/
def quote (cs : List Char) : List Char :=
  cs.flatMap fun c => if isSpecial c then ['\\', c] else [c]

end Expression

/-! ## Libraries -/

/-- A library of regular expressions: the expression that a text writes, if it writes one, and what
the named groups of an expression capture in a text, if it matches anywhere in it. -/
structure Regex where
  Compiled : Type
  compile? (source : List Char) : Option Compiled
  captures? (e : Compiled) (text : String) : Option (List (String × String))

/-- The library of the expressions above, with groups whose names satisfy `isName`. -/
def Expression.regex (isName : List Char → Bool) : Regex where
  Compiled := Expression
  compile? := Expression.read? isName
  captures? e text := (e.find? text.toList).map fun captured =>
    captured.reverse.map fun (name, cs) => (name, String.ofList cs)

end ScriptHost
