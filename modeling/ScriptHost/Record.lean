/-!
# Records

A record is a list of named fields in ascending order of their names, each name once.  The order is
that of the names' characters, which is also the order of their UTF-8 bytes.
-/

set_option autoImplicit false

namespace ScriptHost

/-- Named values, in the order of their names. -/
abbrev Record (α : Type) := List (String × α)

namespace Record

variable {α : Type}

/-- Sets a field; an earlier value of the same name is replaced. -/
def insert (name : String) (value : α) : Record α → Record α
  | [] => [(name, value)]
  | (n, v) :: rest =>
    if name < n then (name, value) :: (n, v) :: rest
    else if n = name then (name, value) :: rest
    else (n, v) :: insert name value rest

/-- The record of a list of fields; of several with one name, the last counts. -/
def ofList (fields : List (String × α)) : Record α :=
  fields.foldl (fun record (name, value) => insert name value record) []

/-- The value under a name. -/
def get? (record : Record α) (name : String) : Option α := record.lookup name

/-- The record without a name. -/
def erase (name : String) (record : Record α) : Record α := record.filter (·.1 ≠ name)

/-- The names, in their order. -/
def names (record : Record α) : List String := record.map (·.1)

theorem mem_names_insert {n name : String} {value : α} (record : Record α) :
    n ∈ names (insert name value record) ↔ n = name ∨ n ∈ names record := by
  induction record with
  | nil => simp [insert, names]
  | cons field rest ih =>
    obtain ⟨n', v⟩ := field
    rw [insert]
    split
    · simp [names]
    · split
      · rename_i hn
        simp [names, hn]
      · simp only [names, List.map_cons, List.mem_cons] at ih ⊢
        rw [ih, or_left_comm]

/-- A record has the names of the fields that it is made of. -/
theorem mem_names_ofList {n : String} (fields : List (String × α)) :
    n ∈ names (ofList fields) ↔ n ∈ fields.map (·.1) := by
  have fold (record : Record α) :
      n ∈ names (fields.foldl (fun record (name, value) => insert name value record) record) ↔
        n ∈ names record ∨ n ∈ fields.map (·.1) := by
    induction fields generalizing record with
    | nil => simp
    | cons field fields ih =>
      rw [List.foldl_cons, ih, mem_names_insert, List.map_cons, List.mem_cons, or_assoc,
        or_left_comm]
  rw [ofList, fold]
  simp [names]

theorem get?_cons (k : String) (v : α) (rest : Record α) (n : String) :
    get? ((k, v) :: rest) n = if n = k then some v else get? rest n := by
  rw [get?, List.lookup_cons]
  by_cases h : n = k
  · simp [h]
  · simp [h, beq_eq_false_iff_ne.2 h, get?]

theorem get?_insert (record : Record α) (name n : String) (value : α) :
    get? (insert name value record) n = if n = name then some value else get? record n := by
  induction record with
  | nil => rw [insert, get?_cons]
  | cons field rest ih =>
    obtain ⟨k, v⟩ := field
    rw [insert]
    split
    · rw [get?_cons]
    · by_cases hk : k = name
      · rw [if_pos hk, get?_cons, get?_cons, hk]
        split <;> rfl
      · rw [if_neg hk, get?_cons, get?_cons, ih]
        by_cases hn : n = k
        · rw [if_pos hn, if_pos hn, if_neg (hn ▸ hk)]
        · rw [if_neg hn, if_neg hn]

theorem get?_erase (record : Record α) (name n : String) :
    get? (erase name record) n = if n = name then none else get? record n := by
  induction record with
  | nil => simp [erase, get?]
  | cons field rest ih =>
    obtain ⟨k, v⟩ := field
    have hcons : erase name ((k, v) :: rest) =
        if k = name then erase name rest else (k, v) :: erase name rest := by
      by_cases hk : k = name <;> simp [erase, hk]
    rw [hcons, get?_cons]
    by_cases hk : k = name
    · rw [if_pos hk, ih]
      by_cases hn : n = name
      · rw [if_pos hn, if_pos hn]
      · rw [if_neg hn, if_neg hn, if_neg (hk ▸ hn)]
    · rw [if_neg hk, get?_cons, ih]
      by_cases hn : n = k
      · rw [if_pos hn, if_pos hn, if_neg (hn ▸ hk)]
      · rw [if_neg hn, if_neg hn]

end Record

end ScriptHost
