import ScriptHost.Json.Tree
import ScriptHost.Text.Quoted
/-!
# Reading configuration

A decoder turns a tree into a value of a known shape, from left to right, and the first thing that
is wrong decides the error: a break in the text, a value of the wrong type, a field given twice, a
variant that does not exist.  What is missing is noticed last, in the order in which the shape lists
its fields.  A structure may also be written as the list of its fields.
-/

set_option autoImplicit false

namespace ScriptHost.Json

/-- What is wrong with a text or with the value in it. -/
inductive DecodeFault where
  | broken (b : Break)
  | invalidType (found expected : String)
  | invalidValue (found expected : String)
  | invalidLength (length : Nat) (expected : String)
  | missingField (name : String)
  | duplicateField (name : String)
  | unknownVariant (name : String) (known : List String)
deriving DecidableEq, Repr

/-- A name between backquotes. -/
def backquoted (s : String) : String := "\x60" ++ s ++ "\x60"

/-- The names a variant may have, in words. -/
def alternatives : List String → String
  | [] => "there are no variants"
  | [a] => "expected " ++ backquoted a
  | [a, b] => "expected " ++ backquoted a ++ " or " ++ backquoted b
  | names => "expected one of " ++ String.intercalate ", " (names.map backquoted)

/-- The text of a fault of the value; a break of the text has none. -/
def DecodeFault.message? : DecodeFault → Option String
  | .broken _ => none
  | .invalidType found expected => some ("invalid type: " ++ found ++ ", expected " ++ expected)
  | .invalidValue found expected => some ("invalid value: " ++ found ++ ", expected " ++ expected)
  | .invalidLength n expected => some ("invalid length " ++ toString n ++ ", expected " ++ expected)
  | .missingField name => some ("missing field " ++ backquoted name)
  | .duplicateField name => some ("duplicate field " ++ backquoted name)
  | .unknownVariant name known =>
    some ("unknown variant " ++ backquoted name ++ ", " ++ alternatives known)

/-- How a value is read off a tree. -/
abbrev Decoder (α : Type) := Tree → Except DecodeFault α

/-- How a tree is named in a message. -/
def Tree.describe : Tree → Except DecodeFault String
  | .null => .ok "null"
  | .bool b => .ok ("boolean " ++ backquoted (toString b))
  | .int n => .ok ("integer " ++ backquoted (toString n))
  | .float (some x) => .ok ("floating point " ++ backquoted (x.text jsonLayout))
  | .float none => .error (.broken .malformed)
  | .text (.ok s) => .ok ("string " ++ Text.quoted s)
  | .text (.error b) => .error (.broken b)
  | .list _ _ => .ok "sequence"
  | .record _ _ => .ok "map"
  | .broken reading _ => .error (.broken reading)

/-- Refuses what stands there in place of what is expected. -/
def mismatch {α : Type} (expected : String) : Decoder α := fun t => do
  .error (.invalidType (← t.describe) expected)

/-! ## Simple values -/

/-- An integer between two bounds. -/
def integer (low high : Int) (expected : String) : Decoder Int
  | .int n =>
    if low ≤ n ∧ n ≤ high then .ok n
    else .error (.invalidValue ("integer " ++ backquoted (toString n)) expected)
  | t => mismatch expected t

/-- A number of some bits. -/
def natural (bits : Nat) (expected : String) : Decoder Nat := fun t =>
  (integer 0 ((1 <<< bits) - 1 : Nat) expected t).map Int.toNat

/-- A size or a count. -/
def size : Decoder Nat := natural 64 "usize"

/-- A number of 64 bits. -/
def word64 : Decoder Nat := natural 64 "u64"

/-- A number of 16 bits. -/
def word16 : Decoder Nat := natural 16 "u16"

/-- An integer of 64 bits. -/
def int64 : Decoder Int := integer minInt maxInt "i64"

/-- One of the two truth values. -/
def boolean : Decoder Bool
  | .bool b => .ok b
  | t => mismatch "a boolean" t

/-- A text. -/
def string : Decoder String
  | .text (.ok s) => .ok s
  | t => mismatch "a string" t

/-- A value that may be missing, for which `null` stands. -/
def optional {α : Type} (decode : Decoder α) : Decoder (Option α)
  | .null => .ok none
  | t => (decode t).map some

/-! ## Lists and maps -/

/-- Whether nothing is wrong behind the last part. -/
def closed : Option Break → Except DecodeFault Unit
  | none => .ok ()
  | some b => .error (.broken b)

/-- A list of values. -/
def list {α : Type} (decode : Decoder α) : Decoder (List α)
  | .list items fault => do
    let values ← items.mapM decode
    closed fault
    return values
  | t => mismatch "a sequence" t

/-- The name of a field, unless it is broken. -/
def fieldName : Except Break String → Except DecodeFault String
  | .ok name => .ok name
  | .error b => .error (.broken b)

/-- A record of values. -/
def map {α : Type} (decode : Decoder α) : Decoder (Record α)
  | .record fields fault => do
    let values ← fields.mapM fun (name, value) => do
      let name ← fieldName name
      return (name, ← decode value)
    closed fault
    return Record.ofList values
  | t => mismatch "a map" t

/-- One of several names, written as a string or as an object whose only field has that name and no
value. -/
def variant {α : Type} (known : List (String × α)) : Decoder α
  | .text (.ok s) => choose s
  | .record [(name, value)] fault => do
    let a ← choose (← fieldName name)
    match value with
    | .null => closed fault
    | t => mismatch "unit" t
    return a
  | .record _ none => .error (.invalidValue "map" "map with a single key")
  | t => mismatch "string or map" t
where
  choose (s : String) : Except DecodeFault α :=
    match known.lookup s with
    | some a => .ok a
    | none => .error (.unknownVariant s (known.map (·.1)))

/-! ## Skipping -/

mutual

/-- The break that a reader meets when it skips a part without looking at its values. -/
def Tree.skipFault : Tree → Option Break
  | .list items fault => (itemSkipFault items).or fault
  | .record fields fault => (fieldSkipFault fields).or fault
  | .broken _ skipping => some skipping
  | _ => none

/-- What is wrong for a reader that skips items. -/
def itemSkipFault : List Tree → Option Break
  | [] => none
  | item :: rest => item.skipFault.or (itemSkipFault rest)

/-- What is wrong for a reader that skips fields. -/
def fieldSkipFault : List (Except Break String × Tree) → Option Break
  | [] => none
  | (_, value) :: rest => value.skipFault.or (fieldSkipFault rest)

end

/-! ## Structures -/

/-- A field of a structure that is being collected in a `β`. -/
structure Field (β : Type) where
  name : String
  otherNames : List String := []
  /-- Whether the list form of the structure must contain the field. -/
  needed : Bool
  read : Tree → β → Except DecodeFault β

/-- The fields that a structure is read from, and its name in messages. -/
structure Shape (β : Type) where
  name : String
  fields : List (Field β)

namespace Shape

variable {β : Type}

/-- The field that goes by a name. -/
def find? (s : Shape β) (name : String) : Option (Field β) :=
  s.fields.find? fun f => f.name = name || f.otherNames.contains name

/-- The fields of an object, in the order of the text. -/
def collect (s : Shape β) :
    List (Except Break String × Tree) → List String → β → Except DecodeFault β
  | [], _, b => .ok b
  | (name, value) :: rest, seen, b => do
    match s.find? (← fieldName name) with
    | none =>
      match value.skipFault with
      | some fault => .error (.broken fault)
      | none => s.collect rest seen b
    | some f =>
      if seen.contains f.name then .error (.duplicateField f.name)
      else s.collect rest (f.name :: seen) (← f.read value b)

/-- How many elements the list form has, in words. -/
def elements (s : Shape β) : String :=
  "struct " ++ s.name ++ " with " ++ toString s.fields.length ++
    (if s.fields.length = 1 then " element" else " elements")

/-- The fields in the order of the shape; the list may end at a field that is not needed. -/
def collectList (s : Shape β) :
    Nat → List (Field β) → List Tree → Option Break → β → Except DecodeFault (β × List Tree)
  | _, [], items, _, b => .ok (b, items)
  | i, f :: fields, [], fault, b =>
    match fault with
    | some reason => .error (.broken reason)
    | none =>
      if f.needed then .error (.invalidLength i s.elements)
      else s.collectList (i + 1) fields [] fault b
  | i, f :: fields, item :: items, fault, b => do
    s.collectList (i + 1) fields items fault (← f.read item b)

/-- Reads a structure that was written as text or taken from a value.  Behind the last field of the
list form, a value reports how long its list is, while a text is malformed there. -/
def decode (s : Shape β) (fromText : Bool) (start : β) : Decoder β
  | .record fields fault => do
    let b ← s.collect fields [] start
    closed fault
    return b
  | .list items fault => do
    let (b, rest) ← s.collectList 0 s.fields items fault start
    if rest.isEmpty then
      closed fault
      return b
    else if fromText then .error (.broken .malformed)
    else .error (.invalidLength items.length "fewer elements in array")
  | t => mismatch ("struct " ++ s.name) t

end Shape

/-- A field that has no default. -/
def required {α : Type} (name : String) : Option α → Except DecodeFault α
  | some a => .ok a
  | none => .error (.missingField name)

/-! ## Whole documents -/

/-- Decodes a whole text, behind which nothing may follow. -/
def decodeText {α : Type} (decode : Decoder α) (text : String) : Except DecodeFault α := do
  let (tree, fault) := scan text
  let value ← decode tree
  closed fault
  return value

/-- Decodes a value that has been read already. -/
def decodeValue {α : Type} (decode : Decoder α) (value : Json) : Except DecodeFault α :=
  decode value.toTree

end ScriptHost.Json
