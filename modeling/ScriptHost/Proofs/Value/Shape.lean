import ScriptHost.Value.Json
import ScriptHost.Proofs.Record

/-!
# The shape of values

Values are trees, so what is said of one is said of it and of everything in it.  This module has the
induction over values (`Value.induction`), what it means that something holds of all values in a
value (`Value.all`), and that a value is one that a script can have (`Value.wellFormed`).

Two things are lost when a value is written as JSON: that bytes were bytes, which leaves
`Value.unpacked`, and, behind a limit, what is nested too deeply, which `Value.depth` counts.
-/

set_option autoImplicit false

namespace ScriptHost.Value

/-- A value is a leaf, or a list or a map of values of which the same is known. -/
theorem induction {motive : Value → Prop} (null : motive null) (bool : ∀ b, motive (bool b))
    (int : ∀ n, motive (int n)) (float : ∀ x, motive (float x)) (str : ∀ s, motive (str s))
    (bytes : ∀ b, motive (bytes b))
    (arr : ∀ items : List Value, (∀ v ∈ items, motive v) → motive (arr items))
    (map : ∀ fields : List (String × Value), (∀ f ∈ fields, motive f.2) → motive (map fields))
    (v : Value) : motive v :=
  @Value.rec motive (fun items => ∀ v ∈ items, motive v) (fun fields => ∀ f ∈ fields, motive f.2)
    (fun f => motive f.2) null bool int float str bytes arr map nofun
    (fun _ _ hv hitems => List.forall_mem_cons.2 ⟨hv, hitems⟩) nofun
    (fun _ _ hf hfields => List.forall_mem_cons.2 ⟨hf, hfields⟩) (fun _ _ hv => hv) v

mutual

/-- Something holds of a value and of all values in it. -/
def all (p : Value → Bool) : Value → Bool
  | arr items => p (arr items) && allItems p items
  | map fields => p (map fields) && allFields p fields
  | v => p v

/-- Something holds of all values in items. -/
def allItems (p : Value → Bool) : List Value → Bool
  | [] => true
  | item :: rest => item.all p && allItems p rest

/-- Something holds of all values in fields. -/
def allFields (p : Value → Bool) : List (String × Value) → Bool
  | [] => true
  | (_, value) :: rest => value.all p && allFields p rest

end

/-- Integers have 64 bits, and the fields of a map are a record. -/
def wellFormed (v : Value) : Bool :=
  v.all fun
    | int n => minInt ≤ n && n ≤ maxInt
    | map fields => decide (Record.Ascending fields)
    | _ => true

/-- No value in it is a float. -/
def floatFree (v : Value) : Bool :=
  v.all fun
    | float _ => false
    | _ => true

mutual

/-- How deep lists and maps are nested.  Bytes count as the list that they are written as. -/
def depth : Value → Nat
  | bytes _ => 1
  | arr items => depthOfItems items + 1
  | map fields => depthOfFields fields + 1
  | null | bool _ | int _ | float _ | str _ => 0

/-- How deep the deepest of some items goes. -/
def depthOfItems : List Value → Nat
  | [] => 0
  | item :: rest => max item.depth (depthOfItems rest)

/-- How deep the deepest of some fields goes. -/
def depthOfFields : List (String × Value) → Nat
  | [] => 0
  | (_, value) :: rest => max value.depth (depthOfFields rest)

end

mutual

/-- The value with lists of integers in the place of bytes. -/
def unpacked : Value → Value
  | bytes b => arr (b.map fun byte => int byte.toNat)
  | arr items => arr (unpackedItems items)
  | map fields => map (unpackedFields fields)
  | v => v

/-- Items with lists of integers in the place of bytes. -/
def unpackedItems : List Value → List Value
  | [] => []
  | item :: rest => item.unpacked :: unpackedItems rest

/-- Fields with lists of integers in the place of bytes. -/
def unpackedFields : List (String × Value) → List (String × Value)
  | [] => []
  | (name, value) :: rest => (name, value.unpacked) :: unpackedFields rest

end

/-! ## Lists and maps

What is defined of a value and of the lists in it side by side, said of the items and the fields. -/

/-- What does the same to each item of a list maps it. -/
theorem eq_map_of_cons {α β : Type} {f : List α → List β} {g : α → β} (nil : f [] = [])
    (cons : ∀ a l, f (a :: l) = g a :: f l) (l : List α) : f l = l.map g := by
  induction l with
  | nil => exact nil
  | cons a l ih => rw [cons, ih, List.map_cons]

theorem itemsToJson_eq_map (items : List Value) : itemsToJson items = items.map toJson :=
  eq_map_of_cons rfl (fun _ _ => rfl) items

theorem fieldsToJson_eq_map (fields : List (String × Value)) :
    fieldsToJson fields = fields.map fun f => (f.1, f.2.toJson) :=
  eq_map_of_cons rfl (fun _ _ => rfl) fields

theorem itemsOfJson_eq_map (items : List Json) : itemsOfJson items = items.map ofJson :=
  eq_map_of_cons rfl (fun _ _ => rfl) items

theorem fieldsOfJson_eq_map (fields : List (String × Json)) :
    fieldsOfJson fields = fields.map fun f => (f.1, ofJson f.2) :=
  eq_map_of_cons rfl (fun _ _ => rfl) fields

theorem unpackedItems_eq_map (items : List Value) : unpackedItems items = items.map unpacked :=
  eq_map_of_cons rfl (fun _ _ => rfl) items

theorem unpackedFields_eq_map (fields : List (String × Value)) :
    unpackedFields fields = fields.map fun f => (f.1, f.2.unpacked) :=
  eq_map_of_cons rfl (fun _ _ => rfl) fields

theorem all_arr (p : Value → Bool) (items : List Value) :
    (arr items).all p = true ↔ p (arr items) = true ∧ ∀ v ∈ items, v.all p = true := by
  have hitems : allItems p items = true ↔ ∀ v ∈ items, v.all p = true := by
    induction items with
    | nil => simp [allItems]
    | cons v items ih => simp [allItems, ih]
  rw [all, Bool.and_eq_true, hitems]

theorem all_map (p : Value → Bool) (fields : List (String × Value)) :
    (map fields).all p = true ↔ p (map fields) = true ∧ ∀ f ∈ fields, f.2.all p = true := by
  have hfields : allFields p fields = true ↔ ∀ f ∈ fields, f.2.all p = true := by
    induction fields with
    | nil => simp [allFields]
    | cons f fields ih => simp [allFields, ih]
  rw [all, Bool.and_eq_true, hfields]

theorem depthOfItems_ints (b : List UInt8) :
    depthOfItems (b.map fun byte => int byte.toNat) = 0 := by
  induction b with
  | nil => rfl
  | cons byte b ih => rw [List.map_cons, depthOfItems, ih]; rfl

end ScriptHost.Value
