import ScriptHost.Url.Domain
import ScriptHost.Url.Escape
/-!
# Hosts

The host of an address is a name or a number.  A name whose last label is a number must be an
address of the older kind, with up to four parts of which the last fills what is left; one in
brackets is an address of eight groups, where two colons stand for zeros.
-/

set_option autoImplicit false

namespace ScriptHost

/-- Why a text is no address. -/
inductive UrlFault where
  | relativeWithoutBase
  | relativeToPlain
  | emptyHost
  | badPort
  | badName
  | badHostCharacter
  | badNumber
  | badGroups
deriving DecidableEq, Repr

/-- How the fault is told. -/
def UrlFault.message : UrlFault → String
  | relativeWithoutBase => "relative URL without a base"
  | relativeToPlain => "relative URL with a cannot-be-a-base base"
  | emptyHost => "empty host"
  | badPort => "invalid port number"
  | badName => "invalid international domain name"
  | badHostCharacter => "invalid domain character"
  | badNumber => "invalid IPv4 address"
  | badGroups => "invalid IPv6 address"

/-- A host; the empty name is no host. -/
inductive UrlHost where
  | name (text : String)
  | number (address : Nat)
  | groups (groups : List Nat)
deriving DecidableEq, Repr

namespace UrlHost

open Url Text

/-! ## Numbers of four bytes -/

/-- The number that digits of a base are written for. -/
def numeral? (base : Nat) : List Char → Option Nat
  | [] => none
  | cs => cs.foldlM (fun n c => do
      let d ← hexValue? c
      if d < base then some (n * base + d) else none) 0

/-- A part of a number: hexadecimal behind `0x`, octal behind `0`, and otherwise decimal. -/
def part? : List Char → Option Nat
  | '0' :: x :: rest =>
    if x = 'x' ∨ x = 'X' then (if rest.isEmpty then some 0 else numeral? 16 rest)
    else numeral? 8 (x :: rest)
  | cs => numeral? 10 cs

/-- The parts between dots; a dot at the end counts for nothing. -/
def parts (cs : List Char) : List (List Char) :=
  let ps := cut (· == '.') cs
  if ps.getLast? = some [] then ps.dropLast else ps

/-- Whether the last part of a name looks like a number, so that the whole name must be one. -/
def endsInNumber (cs : List Char) : Bool :=
  match (parts cs).getLast? with
  | some p => (!p.isEmpty && p.all Char.isDigit) || (part? p).isSome
  | none => false

/-- The last part fills the bytes that the others leave. -/
def number? (cs : List Char) : Option Nat := do
  let ps ← (parts cs).mapM part?
  let last ← ps.getLast?
  let others := ps.dropLast
  if 3 < others.length || 1 <<< (8 * (4 - others.length)) ≤ last || others.any (255 < ·) then none
  else some (others.zipIdx.foldr (fun (n, i) sum => n <<< (8 * (3 - i)) + sum) last)

/-- A number of 32 bits as four numbers with dots between them. -/
def numberText (n : Nat) : String :=
  ".".intercalate ([16777216, 65536, 256, 1].map fun unit => toString (n / unit % 256))

/-! ## Eight groups -/

/-- A byte in decimal, without zeros in front. -/
def plainByte? (cs : List Char) : Option Nat :=
  match numeral? 10 cs with
  | some n => if n ≤ 255 ∧ (toString n).length = cs.length then some n else none
  | none => none

/-- The two groups of a number of four bytes. -/
def byteGroups? (cs : List Char) : Option (List Nat) := do
  match ← (cut (· == '.') cs).mapM plainByte? with
  | [a, b, c, d] => some [a * 256 + b, c * 256 + d]
  | _ => none

/-- A number of at most four hexadecimal digits. -/
def group? (cs : List Char) : Option Nat := if cs.length ≤ 4 then numeral? 16 cs else none

/-- Groups between colons; the last may be written as four bytes if `atEnd`. -/
def groupList? (atEnd : Bool) (cs : List Char) : Option (List Nat) :=
  if cs.isEmpty then some []
  else
    let pieces := cut (· == ':') cs
    match pieces.getLast? with
    | some last =>
      if atEnd && last.contains '.' then do
        return (← pieces.dropLast.mapM group?) ++ (← byteGroups? last)
      else pieces.mapM group?
    | none => none

/-- What stands before and behind the first pair of colons. -/
def splitGap : List Char → Option (List Char × List Char)
  | ':' :: ':' :: rest => some ([], rest)
  | c :: rest => (splitGap rest).map fun (before, behind) => (c :: before, behind)
  | [] => none

/-- The eight groups of an address; a gap stands for as many zeros as are missing. -/
def groups? (cs : List Char) : Option (List Nat) := do
  match splitGap cs with
  | none =>
    let gs ← groupList? true cs
    if gs.length = 8 then some gs else none
  | some (before, behind) =>
    let left ← groupList? false before
    let right ← groupList? true behind
    if left.length + right.length < 8 then
      some (left ++ List.replicate (8 - left.length - right.length) 0 ++ right)
    else none

/-- The longest run of two or more zeros, the first of several, as its start and length. -/
def zeroRun (gs : List Nat) : Option (Nat × Nat) :=
  let run (i : Nat) := ((gs.drop i).takeWhile (· = 0)).length
  (List.range gs.length).foldl (fun best i =>
    if 2 ≤ run i && (best.map (·.2)).getD 0 < run i then some (i, run i) else best) none

/-- Eight groups as they are written, with a gap for the longest run of zeros. -/
def groupsText (gs : List Nat) : String :=
  let text (gs : List Nat) := ":".intercalate (gs.map hexNumber)
  match zeroRun gs with
  | some (i, n) => text (gs.take i) ++ "::" ++ text (gs.drop (i + n))
  | none => text gs

/-! ## Hosts -/

/-- An address in square brackets, if it begins with one. -/
def bracketed? : List Char → Option (Except UrlFault UrlHost)
  | '[' :: rest => some <|
    if rest.getLast? = some ']' then
      match groups? rest.dropLast with
      | some gs => .ok (.groups gs)
      | none => .error .badGroups
    else .error .badGroups
  | _ => none

/-- The host of an address whose scheme knows what hosts are. -/
def read (cs : List Char) : Except UrlFault UrlHost :=
  match bracketed? cs with
  | some r => r
  | none =>
    match asciiName? (Utf8.decodeLossy (unescape cs)).toList with
    | none => .error .badName
    | some [] => .error .emptyHost
    | some ascii =>
      if endsInNumber ascii then
        match number? ascii with
        | some n => .ok (.number n)
        | none => .error .badNumber
      else .ok (.name (String.ofList ascii))

/-- Whether a character may not stand in a name that is left as it is. -/
def isBadInPlain (c : Char) : Bool :=
  c.toNat = 0 || [' ', '#', '/', ':', '<', '>', '?', '@', '[', '\\', ']', '^', '|'].contains c

/-- The host of an address of any other scheme, which is left as it is. -/
def readPlain (cs : List Char) : Except UrlFault UrlHost :=
  match bracketed? cs with
  | some r => r
  | none => if cs.any isBadInPlain then .error .badHostCharacter else .ok (.name (escape [] cs))

/-- The host as it is written. -/
def text : UrlHost → String
  | name s => s
  | number n => numberText n
  | groups gs => "[" ++ groupsText gs ++ "]"

end UrlHost

end ScriptHost
