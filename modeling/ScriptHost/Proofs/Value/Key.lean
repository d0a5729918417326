import ScriptHost.Proofs.Json.RoundTrip
import ScriptHost.Proofs.Record
import ScriptHost.Proofs.Value.Shape

/-!
# What a key says of its value

Entries of a cache and of other tables are found by the key of a value.  The main result is that a
key says what it is the key of (`Value.key_decodes`): if the value is no text, its key is JSON text,
which is read back as the value itself with lists of integers in the place of bytes.

Three facts make it up.  A value that is written as JSON can be read (`Value.readsBack_toJson`): all
integers fit, and nothing is a number with a fraction.  What is read keeps to a limit of the depth
exactly if the value does (`Value.fits`); here the fields of an object have to come out as the
record that they were.  And the JSON that is read becomes the value again (`Value.ofJson_toJson`).

The limit is the reader's, not the key's: `key_decodes` compares the keys of values of any depth,
by reading both of them within the greater of the two depths.
-/

set_option autoImplicit false

namespace ScriptHost.Value

/-! ## Unpacking -/

/-- Bytes and the list of their integers are written alike. -/
theorem toJson_unpacked (v : Value) : v.unpacked.toJson = v.toJson := by
  induction v using induction with
  | null | bool | int | float | str => rfl
  | bytes b =>
    rw [unpacked, toJson, toJson, itemsToJson_eq_map, List.map_map]
    rfl
  | arr items ih =>
    rw [unpacked, toJson, toJson, itemsToJson_eq_map, itemsToJson_eq_map, unpackedItems_eq_map,
      List.map_map]
    exact congrArg Json.arr (List.map_congr_left ih)
  | map fields ih =>
    rw [unpacked, toJson, toJson, fieldsToJson_eq_map, fieldsToJson_eq_map, unpackedFields_eq_map,
      List.map_map]
    exact congrArg Json.obj (List.map_congr_left fun f hf => congrArg (f.1, ·) (ih f hf))

/-- What is written without a float comes back unpacked. -/
theorem ofJson_toJson {v : Value} (hv : v.wellFormed = true) (hfloat : v.floatFree = true) :
    ofJson v.toJson = v.unpacked := by
  induction v using induction with
  | null | bool | str => rfl
  | int n =>
    have hn : minInt ≤ n ∧ n ≤ maxInt := by simpa [wellFormed, all] using hv
    rw [toJson, ofJson, if_pos hn.2]
    rfl
  | float => cases hfloat
  | bytes b =>
    rw [toJson, ofJson, itemsOfJson_eq_map, unpacked, List.map_map]
    refine congrArg arr (List.map_congr_left fun byte _ => if_pos ?_)
    have hbyte := byte.toNat_lt
    simp only [maxInt]
    omega
  | arr items ih =>
    have hv := (all_arr _ items).1 hv
    have hfloat := (all_arr _ items).1 hfloat
    rw [toJson, ofJson, itemsToJson_eq_map, itemsOfJson_eq_map, unpacked, unpackedItems_eq_map,
      List.map_map]
    exact congrArg arr (List.map_congr_left fun v h => ih v h (hv.2 v h) (hfloat.2 v h))
  | map fields ih =>
    have hv := (all_map _ fields).1 hv
    have hfloat := (all_map _ fields).1 hfloat
    rw [toJson, ofJson, fieldsToJson_eq_map, fieldsOfJson_eq_map, unpacked, unpackedFields_eq_map,
      List.map_map]
    exact congrArg map (List.map_congr_left fun f h =>
      congrArg (f.1, ·) (ih f h (hv.2 f h) (hfloat.2 f h)))

/-! ## Reading a key -/

/-- What is written without a float can be read. -/
theorem readsBack_toJson {v : Value} (hv : v.wellFormed = true) (hfloat : v.floatFree = true) :
    v.toJson.ReadsBack := by
  induction v using induction with
  | null => exact .null
  | bool b => exact .bool b
  | str s => exact .str s
  | int n =>
    have hn : minInt ≤ n ∧ n ≤ maxInt := by simpa [wellFormed, all] using hv
    exact .int hn.1 (Int.le_trans hn.2 (by decide))
  | float => cases hfloat
  | bytes b =>
    refine .arr fun j hj => ?_
    obtain ⟨byte, -, rfl⟩ := List.mem_map.1 hj
    exact .natural (Nat.le_trans (Nat.le_of_lt byte.toNat_lt) (by decide))
  | arr items ih =>
    have hv := (all_arr _ items).1 hv
    have hfloat := (all_arr _ items).1 hfloat
    rw [toJson, itemsToJson_eq_map]
    refine .arr fun j hj => ?_
    obtain ⟨v, h, rfl⟩ := List.mem_map.1 hj
    exact ih v h (hv.2 v h) (hfloat.2 v h)
  | map fields ih =>
    have hv := (all_map _ fields).1 hv
    have hfloat := (all_map _ fields).1 hfloat
    rw [toJson, fieldsToJson_eq_map]
    refine .obj fun j hj => ?_
    obtain ⟨f, h, rfl⟩ := List.mem_map.1 hj
    exact ih f h (hv.2 f h) (hfloat.2 f h)

/-- What becomes of the tree of a value under a limit of the depth. -/
def Fits (v : Value) : Prop :=
  ∀ limit, v.toJson.toTree.value limit =
    if v.depth ≤ limit then .ok v.toJson else .error .malformed

/-- Of two parts, both have to keep to a limit. -/
theorem both_within {ε α β γ : Type} (m n limit : Nat) (e : ε) (a : α) (b : β) (f : α → β → γ) :
    ((if m ≤ limit then Except.ok a else .error e) >>= fun x =>
      (if n ≤ limit then Except.ok b else .error e) >>= fun y => pure (f x y)) =
        if max m n ≤ limit then Except.ok (f a b) else .error e := by
  by_cases hm : m ≤ limit
  · by_cases hn : n ≤ limit
    · rw [if_pos hm, if_pos hn, if_pos (Nat.max_le.2 ⟨hm, hn⟩)]
      rfl
    · rw [if_pos hm, if_neg hn, if_neg fun hmax => hn (Nat.max_le.1 hmax).2]
      rfl
  · rw [if_neg hm, if_neg fun hmax => hm (Nat.max_le.1 hmax).1]
    rfl

/-- What is nested in something has to keep to a limit that is one less. -/
theorem nested_within {α : Type} {read : Nat → Except Json.Break α} {n : Nat} {a : α}
    (make : α → Json) (hread : ∀ limit, read limit = if n ≤ limit then .ok a else .error .malformed)
    (limit : Nat) :
    (if limit = 0 then .error .malformed
      else read (limit - 1) >>= fun x => Json.closing (make x) none) =
        if n + 1 ≤ limit then .ok (make a) else .error .malformed := by
  cases limit with
  | zero => rfl
  | succ limit =>
    rw [if_neg (Nat.succ_ne_zero _), Nat.add_sub_cancel, hread]
    by_cases hn : n ≤ limit
    · rw [if_pos hn, if_pos (Nat.succ_le_succ hn)]
      rfl
    · rw [if_neg hn, if_neg fun hle => hn (Nat.le_of_succ_le_succ hle)]
      rfl

theorem itemValues_of_fits {items : List Value} (h : ∀ v ∈ items, v.Fits) (limit : Nat) :
    Json.itemValues limit (Json.itemTrees (itemsToJson items)) =
      if depthOfItems items ≤ limit then .ok (itemsToJson items) else .error .malformed := by
  induction items with
  | nil => rfl
  | cons v items ih =>
    have hv := h v (List.mem_cons_self ..) limit
    have hitems := ih fun w hw => h w (List.mem_cons_of_mem _ hw)
    rw [itemsToJson, Json.itemTrees, Json.itemValues, hv, hitems]
    exact both_within _ _ limit _ _ _ List.cons

theorem fieldValues_of_fits {fields : List (String × Value)} (h : ∀ f ∈ fields, f.2.Fits)
    (limit : Nat) :
    Json.fieldValues limit (Json.fieldTrees (fieldsToJson fields)) =
      if depthOfFields fields ≤ limit then .ok (fieldsToJson fields) else .error .malformed := by
  induction fields with
  | nil => rfl
  | cons f fields ih =>
    have hf := h f (List.mem_cons_self ..) limit
    have hfields := ih fun g hg => h g (List.mem_cons_of_mem _ hg)
    rw [fieldsToJson, Json.fieldTrees, Json.fieldValues, hf, hfields]
    exact both_within _ _ limit _ _ _ fun j fields => (f.1, j) :: fields

theorem fits_arr {items : List Value} (h : ∀ v ∈ items, v.Fits) : (arr items).Fits := by
  intro limit
  rw [toJson, Json.toTree, Json.Tree.value, depth]
  exact nested_within Json.arr (itemValues_of_fits h) limit

/-- An object is the record of its fields if these are one. -/
theorem fits_map {fields : List (String × Value)} (hascending : Record.Ascending fields)
    (h : ∀ f ∈ fields, f.2.Fits) : (map fields).Fits := by
  intro limit
  have hjson : Json.ofFields (fieldsToJson fields) = .obj (fieldsToJson fields) := by
    rw [fieldsToJson_eq_map]
    exact congrArg Json.obj (Record.Ascending.ofList_eq (List.pairwise_map.2 hascending))
  rw [toJson, Json.toTree, Json.Tree.value, depth, ← hjson]
  exact nested_within Json.ofFields (fieldValues_of_fits h) limit

/-- **How deep a value is nested decides whether its text is read.** -/
theorem fits {v : Value} (hv : v.wellFormed = true) : v.Fits := by
  induction v using induction with
  | null | bool | int | str => exact fun limit => (if_pos (Nat.zero_le limit)).symm
  | float x =>
    intro limit
    rw [toJson]
    split <;> exact (if_pos (Nat.zero_le limit)).symm
  | bytes b =>
    have hints : (unpacked (bytes b)).Fits := by
      rw [unpacked]
      refine fits_arr fun v hv limit => ?_
      obtain ⟨byte, -, rfl⟩ := List.mem_map.1 hv
      exact (if_pos (Nat.zero_le limit)).symm
    intro limit
    have hlimit := hints limit
    rwa [toJson_unpacked, unpacked, depth, depthOfItems_ints] at hlimit
  | arr items ih => exact fits_arr fun v h => ih v h (((all_arr _ items).1 hv).2 v h)
  | map fields ih =>
    have hv := (all_map _ fields).1 hv
    exact fits_map (of_decide_eq_true hv.1) fun f h => ih f h (hv.2 f h)

/-! ## The key -/

/-- A key is read up to a limit of the depth. -/
theorem parseWithin_text {v : Value} (hv : v.wellFormed = true) (hfloat : v.floatFree = true)
    (limit : Nat) :
    Json.parseWithin limit v.toJson.text =
      if v.depth ≤ limit then .ok v.toJson else .error .malformed := by
  rw [Json.parseWithin, Json.scan_text (readsBack_toJson hv hfloat)]
  simp only [fits hv limit]
  split <;> rfl

theorem key_eq_text {v : Value} (hv : v.str? = none) : v.key = v.toJson.text := by
  cases v with
  | str s => cases hv
  | null | bool | int | float | bytes | arr | map => rfl

/-- **A key says what it is the key of.**  The key of a value that is no text and contains no float
is JSON text; read as such it gives the value back, with lists of integers in the place of bytes, if
it is nested at most 127 deep, and otherwise it is refused.  However deep they are nested, two such
values have the same key only if they are the same but for that. -/
theorem key_decodes {v : Value} (hv : v.wellFormed = true) (hfloat : v.floatFree = true)
    (htext : v.str? = none) :
    (Json.parse v.key).map ofJson =
        (if v.depth ≤ 127 then .ok v.unpacked else .error .malformed) ∧
      ∀ w : Value, w.wellFormed = true → w.floatFree = true → w.str? = none →
        (v.key = w.key ↔ v.unpacked = w.unpacked) := by
  rw [key_eq_text htext]
  refine ⟨?_, fun w hw hwfloat hwtext => ?_⟩
  · rw [Json.parse, parseWithin_text hv hfloat, ← ofJson_toJson hv hfloat]
    show (if v.depth ≤ 127 then _ else _ : Except Json.Break Json).map ofJson = _
    split <;> rfl
  · rw [key_eq_text hwtext]
    constructor
    · intro heq
      -- the two texts are one, which is read within the depth of both
      have hread := parseWithin_text hv hfloat (max v.depth w.depth)
      rw [heq, parseWithin_text hw hwfloat, if_pos (Nat.le_max_right ..),
        if_pos (Nat.le_max_left ..)]
        at hread
      rw [← ofJson_toJson hv hfloat, ← ofJson_toJson hw hwfloat, Except.ok.inj hread]
    · intro heq
      rw [← toJson_unpacked v, ← toJson_unpacked w, heq]

theorem key_decodes_bytes :
    (Json.parse
      (map [("\x00\"é", bytes [0, 255]), ("é\n", arr [int minInt, null])]).key).map ofJson =
        .ok (map [("\x00\"é", arr [int 0, int 255]), ("é\n", arr [int minInt, null])]) ∧
      (map [("\x00\"é", bytes [0, 255]), ("é\n", arr [int minInt, null])]).key =
        (map [("\x00\"é", arr [int 0, int 255]), ("é\n", arr [int minInt, null])]).key := by
  have h := @key_decodes (map [("\x00\"é", bytes [0, 255]), ("é\n", arr [int minInt, null])])
    (by decide) (by decide) rfl
  exact ⟨h.1, (h.2 _ (by decide) (by decide) rfl).2 rfl⟩

end ScriptHost.Value
