import ScriptHost.Cache
import ScriptHost.Proofs.Json.RoundTrip
import ScriptHost.Proofs.Value.Shape
import Mathlib.Data.List.Forall2

/-!
# Equal values and their keys

Values that are equal have the same shape and the same leaves, with one exception: the two zeros are
equal as numbers, and they are written with different signs.  So equal values may have different
keys, and they do exactly where a zero of one has another sign than the zero in its place in the
other (`Value.key_eq_iff_of_same`).

Whatever is written of a value from left to right, its JSON text as well as the signs of its zeros,
is put together of what is written of its leaves.  It is enough that it tells equal leaves apart,
whatever stands behind them (`ToldBy`): then it tells any two equal values apart
(`Value.toldBy_of_same`).
-/

set_option autoImplicit false

namespace ScriptHost

/-! ## Telling things apart -/

section

variable {α β : Type} {write : α → List β} {a b : α} {l m : List α}

/-- What is written of the two shows whether they are one, and where it ends, whatever stands behind
it. -/
def ToldBy (write : α → List β) (a b : α) : Prop :=
  ∀ ⦃x y : List β⦄, write a ++ x = write b ++ y → a = b ∧ x = y

theorem ToldBy.refl (write : α → List β) (a : α) : ToldBy write a a := by
  intro x y h
  exact ⟨rfl, List.append_cancel_left h⟩

/-- Things are told apart by what is made of them. -/
theorem ToldBy.of_comp {γ : Type} {write : γ → List β} {f : α → γ}
    (h : ToldBy (fun a => write (f a)) a b) : ToldBy write (f a) (f b) := by
  intro x y heq
  obtain ⟨rfl, hxy⟩ := h heq
  exact ⟨rfl, hxy⟩

theorem ToldBy.cons (h : ToldBy write a b) (c : β) : ToldBy (fun a => c :: write a) a b := by
  intro x y heq
  exact h (List.cons.inj heq).2

/-- They are one if and only if the same is written of them. -/
theorem ToldBy.iff (h : ToldBy write a b) : write a = write b ↔ a = b := by
  refine ⟨fun heq => ?_, congrArg write⟩
  exact (h (x := []) (y := []) (by rw [heq])).1

/-- Lists are told apart item by item. -/
theorem toldBy_flatMap (h : List.Forall₂ (ToldBy write) l m) :
    ToldBy (fun items => items.flatMap write) l m := by
  induction h with
  | nil => exact .refl _ []
  | cons hfirst _ ih =>
    intro x y heq
    simp only [List.flatMap_cons, List.append_assoc] at heq
    obtain ⟨rfl, hrest⟩ := hfirst heq
    obtain ⟨rfl, hxy⟩ := ih hrest
    exact ⟨rfl, hxy⟩

/-- Records are told apart field by field. -/
theorem forall₂_toldBy_fields (label : String → List β) {fields fields' : List (String × α)}
    (h : List.Forall₂ (fun f f' => f.1 = f'.1 ∧ ToldBy write f.2 f'.2) fields fields') :
    List.Forall₂ (ToldBy fun f => label f.1 ++ write f.2) fields fields' := by
  refine h.imp ?_
  rintro ⟨name, a⟩ ⟨_, b⟩ ⟨rfl, hab⟩ x y heq
  simp only [List.append_assoc] at heq
  obtain ⟨rfl, hxy⟩ := hab (List.append_cancel_left heq)
  exact ⟨rfl, hxy⟩

/-- Brackets and the commas between the items make no difference. -/
theorem toldBy_bracketed {write : α → List Char} {joined : List α → List Char}
    (opening closing : Char)
    (hjoined : ∀ a l, ',' :: joined (a :: l) = (a :: l).flatMap fun b => ',' :: write b)
    (h : List.Forall₂ (ToldBy fun b => ',' :: write b) l m) :
    ToldBy (fun items => opening :: (joined items ++ [closing])) l m := by
  have hitems := toldBy_flatMap h
  cases h with
  | nil => exact .refl _ []
  | cons =>
    intro x y heq
    simp only [List.cons_append, List.append_assoc, List.nil_append, List.cons.injEq,
      true_and] at heq
    have hcomma := congrArg (',' :: ·) heq
    simp only [← List.cons_append, hjoined] at hcomma
    obtain ⟨hlists, hxy⟩ := hitems hcomma
    exact ⟨hlists, (List.cons.inj hxy).2⟩

end

/-! ## Zeros -/

namespace Binary64

theorem isZero_iff (x : Binary64) : x.isZero = true ↔ x.bits.toNat % 2 ^ 63 = 0 := by
  have hexponent : x.exponentField = x.bits.toNat / 2 ^ 52 % 2 ^ 11 := by
    rw [exponentField, UInt64.toNat_and, UInt64.toNat_shiftRight, Nat.shiftRight_eq_div_pow]
    exact Nat.and_two_pow_sub_one_eq_mod _ 11
  have hfraction : x.fractionField = x.bits.toNat % 2 ^ 52 := by
    rw [fractionField, UInt64.toNat_and]
    exact Nat.and_two_pow_sub_one_eq_mod _ 52
  rw [isZero, Bool.and_eq_true, beq_iff_eq, beq_iff_eq, hexponent, hfraction]
  omega

theorem isNegative_iff (x : Binary64) : x.isNegative = true ↔ 2 ^ 63 ≤ x.bits.toNat := by
  have hlt := x.bits.toNat_lt
  rw [isNegative, beq_iff_eq, ← UInt64.toNat_inj, UInt64.toNat_shiftRight,
    Nat.shiftRight_eq_div_pow]
  show x.bits.toNat / 2 ^ 63 = 1 ↔ _
  omega

/-- There are two zeros, one of each sign. -/
theorem eq_of_isZero {x y : Binary64} (hx : x.isZero = true) (hy : y.isZero = true)
    (hsign : x.isNegative = y.isNegative) : x = y := by
  obtain ⟨m⟩ := x
  obtain ⟨n⟩ := y
  have hm := m.toNat_lt
  have hn := n.toNat_lt
  rw [isZero_iff] at hx hy
  rw [Bool.eq_iff_iff, isNegative_iff, isNegative_iff] at hsign
  simp only at hx hy hsign
  rw [show m = n from UInt64.toNat_inj.1 (by omega)]

end Binary64

namespace Value

mutual

/-- The zeros in a value from left to right, and whether each of them is the negative one. -/
def zeros : Value → List Bool
  | float x => if x.isZero then [x.isNegative] else []
  | arr items => zerosOfItems items
  | map fields => zerosOfFields fields
  | null | bool _ | int _ | str _ | bytes _ => []

/-- The signs of the zeros in items. -/
def zerosOfItems : List Value → List Bool
  | [] => []
  | item :: rest => item.zeros ++ zerosOfItems rest

/-- The signs of the zeros in fields. -/
def zerosOfFields : List (String × Value) → List Bool
  | [] => []
  | (_, value) :: rest => value.zeros ++ zerosOfFields rest

end

theorem zeros_arr (items : List Value) : (arr items).zeros = items.flatMap zeros := by
  rw [zeros]
  induction items with
  | nil => rfl
  | cons v items ih => rw [zerosOfItems, ih, List.flatMap_cons]

theorem zeros_map (fields : List (String × Value)) :
    (map fields).zeros = fields.flatMap fun f => f.2.zeros := by
  rw [zeros]
  induction fields with
  | nil => rfl
  | cons f fields ih => rw [zerosOfFields, ih, List.flatMap_cons]

/-! ## Equal values -/

/-- How two values can be equal. -/
inductive Matches : Value → Value → Prop
  | refl (v : Value) : Matches v v
  | zeros {x y : Binary64} : x.isZero = true → y.isZero = true → Matches (float x) (float y)
  | arr {items items' : List Value} : sameItems items items' = true →
    Matches (arr items) (arr items')
  | map {fields fields' : List (String × Value)} : sameFields fields fields' = true →
      Matches (map fields) (map fields')

theorem matches_of_same {v w : Value} (h : v.same w = true) : Matches v w := by
  unfold same at h
  split at h
  · exact .refl _
  · rw [eq_of_beq h]
    exact .refl _
  · rw [eq_of_beq h]
    exact .refl _
  · rename_i x y
    simp only [Binary64.sameNumber, Bool.and_eq_true, Bool.or_eq_true, beq_iff_eq] at h
    obtain ⟨-, rfl | ⟨hx, hy⟩⟩ := h
    · exact .refl _
    · exact .zeros hx hy
  · rw [eq_of_beq h]
    exact .refl _
  · rw [eq_of_beq h]
    exact .refl _
  · exact .arr h
  · exact .map h
  · cases h

/-- Lists of equal values have equal items. -/
theorem forall₂_of_sameItems {P : Value → Value → Prop} {items items' : List Value}
    (hP : ∀ v ∈ items, ∀ w, v.same w = true → P v w) (h : sameItems items items' = true) :
    List.Forall₂ P items items' := by
  induction items generalizing items' with
  | nil =>
    cases items' with
    | nil => exact .nil
    | cons => cases h
  | cons v items ih =>
    cases items' with
    | nil => cases h
    | cons w items' =>
      rw [sameItems, Bool.and_eq_true] at h
      obtain ⟨hv, hitems⟩ := List.forall_mem_cons.1 hP
      exact .cons (hv w h.1) (ih hitems h.2)

/-- Equal maps have equal values under the same names. -/
theorem forall₂_of_sameFields {P : Value → Value → Prop} {fields fields' : List (String × Value)}
    (hP : ∀ f ∈ fields, ∀ w, f.2.same w = true → P f.2 w)
    (h : sameFields fields fields' = true) :
    List.Forall₂ (fun f f' => f.1 = f'.1 ∧ P f.2 f'.2) fields fields' := by
  induction fields generalizing fields' with
  | nil =>
    cases fields' with
    | nil => exact .nil
    | cons => cases h
  | cons f fields ih =>
    cases fields' with
    | nil => cases h
    | cons f' fields' =>
      rw [sameFields, Bool.and_eq_true, Bool.and_eq_true, beq_iff_eq] at h
      obtain ⟨hf, hfields⟩ := List.forall_mem_cons.1 hP
      exact .cons ⟨h.1.1, hf f'.2 h.1.2⟩ (ih hfields h.2)

/-- **Equal values are told apart** by what tells zeros apart and is put together of parts. -/
theorem toldBy_of_same {β : Type} {write : Value → List β}
    (zero : ∀ x y : Binary64, x.isZero = true → y.isZero = true →
      ToldBy write (float x) (float y))
    (list : ∀ items items' : List Value, List.Forall₂ (ToldBy write) items items' →
      ToldBy (fun items => write (arr items)) items items')
    (record : ∀ fields fields' : List (String × Value),
      List.Forall₂ (fun f f' => f.1 = f'.1 ∧ ToldBy write f.2 f'.2) fields fields' →
        ToldBy (fun fields => write (map fields)) fields fields')
    {v w : Value} (h : v.same w = true) : ToldBy write v w := by
  induction v using induction generalizing w with
  | null | bool | int | str | bytes =>
    cases matches_of_same h
    exact .refl write _
  | float x =>
    cases matches_of_same h with
    | refl => exact .refl write _
    | zeros hx hy => exact zero _ _ hx hy
  | arr items ih =>
    cases matches_of_same h with
    | refl => exact .refl write _
    | arr hitems => exact (list _ _ (forall₂_of_sameItems (fun v hv w => ih v hv) hitems)).of_comp
  | map fields ih =>
    cases matches_of_same h with
    | refl => exact .refl write _
    | map hfields =>
      exact (record _ _ (forall₂_of_sameFields (fun f hf w => ih f hf) hfields)).of_comp

/-- The signs of their zeros tell equal values apart. -/
theorem toldBy_zeros {v w : Value} (h : v.same w = true) : ToldBy zeros v w := by
  refine toldBy_of_same (fun x y hx hy a b heq => ?_) (fun items items' hitems => ?_)
    (fun fields fields' hfields => ?_) h
  · rw [zeros, if_pos hx, zeros, if_pos hy] at heq
    obtain ⟨hsign, hab⟩ := List.cons.inj heq
    exact ⟨congrArg float (Binary64.eq_of_isZero hx hy hsign), hab⟩
  · simp only [zeros_arr]
    exact toldBy_flatMap hitems
  · simp only [zeros_map]
    exact toldBy_flatMap (forall₂_toldBy_fields (fun _ => []) hfields)

/-! ## Keys -/

/-- A zero is written with its sign. -/
theorem chars_zero {x : Binary64} (h : x.isZero = true) :
    (float x).toJson.chars = (if x.isNegative then ['-'] else []) ++ ['0', '.', '0'] := by
  have hfinite : x.isFinite = true := by
    rw [Binary64.isZero, Bool.and_eq_true, beq_iff_eq] at h
    simp [Binary64.isFinite, h.1]
  rw [toJson, if_pos hfinite, Json.chars, Json.floatChars, if_pos hfinite, Binary64.text, if_pos h,
    String.toList_append]
  cases x.isNegative <;> rfl

/-- The JSON text tells equal values apart. -/
theorem toldBy_chars {v w : Value} (h : v.same w = true) :
    ToldBy (fun v => v.toJson.chars) v w := by
  refine toldBy_of_same (fun x y hx hy a b heq => ?_) (fun items items' hitems => ?_)
    (fun fields fields' hfields => ?_) h
  · rw [chars_zero hx, chars_zero hy] at heq
    by_cases hsign : x.isNegative = y.isNegative
    · obtain rfl := Binary64.eq_of_isZero hx hy hsign
      exact ⟨rfl, List.append_cancel_left heq⟩
    · cases hx' : x.isNegative <;> cases hy' : y.isNegative <;> simp [hx', hy'] at heq hsign
  · have hjoined (v : Value) (items : List Value) :
        ',' :: Json.itemChars (itemsToJson (v :: items)) =
        (v :: items).flatMap fun v => ',' :: v.toJson.chars := by
      rw [itemsToJson, Json.itemChars_cons, Json.moreItems, itemsToJson_eq_map, List.flatMap_map]
      rfl
    exact toldBy_bracketed '[' ']' hjoined (hitems.imp fun _ _ h => h.cons ',')
  · have hjoined (f : String × Value) (fields : List (String × Value)) :
        ',' :: Json.fieldChars (fieldsToJson (f :: fields)) =
          (f :: fields).flatMap fun f => ',' :: (Json.literal f.1 ++ ':' :: f.2.toJson.chars) := by
      rw [fieldsToJson, Json.fieldChars_eq, Json.moreFields, fieldsToJson_eq_map, List.flatMap_map]
      simp
    have hcomma := forall₂_toldBy_fields (fun name => ',' :: (Json.literal name ++ [':'])) hfields
    simp only [List.cons_append, List.append_assoc, List.nil_append] at hcomma
    exact toldBy_bracketed '\x7b' '\x7d' hjoined hcomma

/-- What has been stored under one key is found under another one if the two keys are the same. -/
theorem get_set_iff {α : Type} (c : Clock) (k k' : String) (x : α) :
    ((({} : Cache α).call c (.set k x none)).2.call c (.get k')).1 = .value (some x) ↔ k = k' := by
  by_cases h : k' = k
  · simp [Cache.call, Cache.put, Cache.erase, Cache.look, Cache.expiry, Cache.Entry.isLive, h]
  · have hne : (k' == k) = false := by simpa using h
    simp [Cache.call, Cache.put, Cache.erase, Cache.look, List.lookup_cons, hne, Ne.symm h]

/-- **When equal values have one key.**  They do if and only if all zeros that they have in the same
place have the same sign; and so one finds in a cache what is stored under the other. -/
theorem key_eq_iff_of_same {v w : Value} (h : v.same w = true) :
    (v.key = w.key ↔ v.zeros = w.zeros) ∧
      ∀ (α : Type) (c : Clock) (x : α),
        ((({} : Cache α).call c (.set v.key x none)).2.call c (.get w.key)).1 = .value (some x) ↔
          v.zeros = w.zeros := by
  have hkeys : v.key = w.key ↔ v.zeros = w.zeros := by
    rw [(toldBy_zeros h).iff]
    refine ⟨fun hkey => ?_, congrArg key⟩
    have htext : String.ofList v.toJson.chars = String.ofList w.toJson.chars → v = w :=
      fun heq => (toldBy_chars h).iff.1 (String.ofList_injective heq)
    cases matches_of_same h with
    | refl => rfl
    | zeros | arr | map => exact htext hkey
  exact ⟨hkeys, fun α c x => (get_set_iff c _ _ x).trans hkeys⟩

/-- Two lists of records, equal but for the sign of one zero. -/
theorem key_eq_iff_of_same_nested :
    let v := arr [float (.zero true), map [("a", float (.zero false)), ("b", int 0)]]
    let w := arr [float (.zero true), map [("a", float (.zero true)), ("b", int 0)]]
    v.same w = true ∧ v.zeros = [true, false] ∧ w.zeros = [true, true] ∧ v.key ≠ w.key := by
  intro v w
  have hsame : v.same w = true := by decide
  exact ⟨hsame, rfl, rfl, fun hkey => absurd ((key_eq_iff_of_same hsame).1.1 hkey) (by decide)⟩

/-- The two zeros are equal, and what is stored under one of them is not found under the other. -/
theorem key_of_negative_zero :
    let v := float (.zero false)
    let w := float (.zero true)
    v.same w = true ∧ v.key = "0.0" ∧ w.key = "-0.0" ∧
      ((({} : Cache Nat).call {} (.set v.key 1 none)).2.call {} (.get w.key)).1 = .value none :=
  ⟨by decide, by decide +kernel, by decide +kernel, rfl⟩

end Value

end ScriptHost
