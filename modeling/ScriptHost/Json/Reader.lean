import ScriptHost.Json.Tree
import ScriptHost.Text.Utf8
/-!
# Reading JSON text

A text is read as a value when its tree has no break anywhere, every string and number in it has a
value, and nothing is nested too deeply.  The first thing wrong, from left to right, is the error.
-/

set_option autoImplicit false

namespace ScriptHost.Json

/-- How deep lists and objects may be nested. -/
def depthLimit : Nat := 127

/-- A value whose list or object has been read to its end, unless something is wrong there. -/
def closing {α : Type} (value : α) : Option Break → Except Break α
  | none => .ok value
  | some b => .error b

mutual

/-- The value of a tree that may contain `depth` levels of lists and objects. -/
def Tree.value (depth : Nat) : Tree → Except Break Json
  | .null => .ok .null
  | .bool b => .ok (.bool b)
  | .int n => .ok (.int n)
  | .float (some x) => .ok (.float x)
  | .float none => .error .malformed
  | .text s => s.map .str
  | .list items fault =>
    if depth = 0 then .error .malformed
    else do
      let items ← itemValues (depth - 1) items
      closing (.arr items) fault
  | .record fields fault =>
    if depth = 0 then .error .malformed
    else do
      let fields ← fieldValues (depth - 1) fields
      closing (.ofFields fields) fault
  | .broken reading _ => .error reading

/-- The values of items, up to the first that is broken. -/
def itemValues (depth : Nat) : List Tree → Except Break (List Json)
  | [] => .ok []
  | item :: rest => do
    let value ← item.value depth
    let values ← itemValues depth rest
    return value :: values

/-- The values of fields, up to the first that is broken. -/
def fieldValues (depth : Nat) :
    List (Except Break String × Tree) → Except Break (List (String × Json))
  | [] => .ok []
  | (name, item) :: rest => do
    let name ← name
    let value ← item.value depth
    let values ← fieldValues depth rest
    return (name, value) :: values

end

/-- Reads a text in which lists and objects are nested at most `depth` deep. -/
def parseWithin (depth : Nat) (text : String) : Except Break Json := do
  let (tree, fault) := scan text
  let value ← tree.value depth
  closing value fault

/-- Reads a text that holds one value. -/
def parse (text : String) : Except Break Json := parseWithin depthLimit text

/-- Reads bytes as JSON text.  Text that is not well formed is never JSON: outside of strings only
ASCII is allowed, and strings have to be well formed. -/
def parseBytes (bytes : Bytes) : Except Break Json :=
  match Utf8.decode? bytes with
  | some text => parse text
  | none => .error .malformed

end ScriptHost.Json
