import Mathlib.Data.String.Basic
import ScriptHost.Record

/-!
# Records in order

The names of a record ascend, and setting a field keeps them so.  So setting a field replaces one, a
record that is laid over another one hides the fields of its names, and of the fields that a choice
leaves the last one has the greatest name.  The record of its own fields is the record itself
(`Ascending.ofList_eq`).
-/

set_option autoImplicit false

namespace ScriptHost.Record

variable {α : Type} {record : Record α} {f : String × α}

/-- The names ascend. -/
def Ascending (record : Record α) : Prop := record.Pairwise (·.1 < ·.1)

instance (record : Record α) : Decidable record.Ascending :=
  inferInstanceAs (Decidable (record.Pairwise (·.1 < ·.1)))

/-- Setting a field replaces the one of its name. -/
theorem mem_insert (h : record.Ascending) {name : String} {value : α} :
    f ∈ insert name value record ↔ f = (name, value) ∨ f ∈ record ∧ f.1 ≠ name := by
  induction record with
  | nil => simp [insert]
  | cons field rest ih =>
    obtain ⟨n, v⟩ := field
    obtain ⟨hfirst, hrest⟩ := List.pairwise_cons.1 h
    rw [insert]
    split
    · rename_i hlt
      rw [List.mem_cons]
      refine or_congr_right (iff_self_and.2 fun hf heq => ?_)
      rcases List.mem_cons.1 hf with rfl | hf
      · exact absurd heq hlt.ne'
      · exact absurd heq (hlt.trans (hfirst f hf)).ne'
    · split
      · rename_i heq
        subst heq
        rw [List.mem_cons, List.mem_cons]
        refine or_congr_right ⟨fun hf => ⟨.inr hf, (hfirst f hf).ne'⟩, ?_⟩
        rintro ⟨rfl | hf, hne⟩
        · exact absurd rfl hne
        · exact hf
      · rename_i hne
        rw [List.mem_cons, ih hrest, List.mem_cons]
        constructor
        · rintro (rfl | rfl | ⟨hf, hne⟩)
          · exact .inr ⟨.inl rfl, hne⟩
          · exact .inl rfl
          · exact .inr ⟨.inr hf, hne⟩
        · rintro (rfl | ⟨rfl | hf, hne⟩)
          · exact .inr (.inl rfl)
          · exact .inl rfl
          · exact .inr (.inr ⟨hf, hne⟩)

theorem Ascending.insert (h : record.Ascending) (name : String) (value : α) :
    Ascending (insert name value record) := by
  induction record with
  | nil => exact List.pairwise_singleton ..
  | cons field rest ih =>
    obtain ⟨n, v⟩ := field
    obtain ⟨hfirst, hrest⟩ := List.pairwise_cons.1 h
    rw [Record.insert]
    split
    · rename_i hlt
      refine List.pairwise_cons.2 ⟨fun g hg => ?_, h⟩
      rcases List.mem_cons.1 hg with rfl | hg
      · exact hlt
      · exact hlt.trans (hfirst g hg)
    · split
      · rename_i heq
        subst heq
        exact List.pairwise_cons.2 ⟨hfirst, hrest⟩
      · rename_i hle hne
        refine List.pairwise_cons.2 ⟨fun g hg => ?_, ih hrest⟩
        rcases (mem_insert hrest).1 hg with rfl | ⟨hg, -⟩
        · exact lt_of_le_of_ne (not_lt.1 hle) hne
        · exact hfirst g hg

theorem Ascending.foldl_insert (h : record.Ascending) (upper : Record α) :
    Ascending (upper.foldl (fun all (name, value) => Record.insert name value all) record) := by
  induction upper generalizing record with
  | nil => exact h
  | cons field upper ih => exact ih (h.insert field.1 field.2)

/-- A record laid over another one hides the fields of its names. -/
theorem mem_foldl_insert {upper : Record α} (hupper : upper.Ascending) (h : record.Ascending) :
    f ∈ upper.foldl (fun all (name, value) => Record.insert name value all) record ↔
      f ∈ upper ∨ f ∈ record ∧ f.1 ∉ names upper := by
  induction upper generalizing record with
  | nil => simp [names]
  | cons field upper ih =>
    obtain ⟨n, v⟩ := field
    obtain ⟨hfirst, hrest⟩ := List.pairwise_cons.1 hupper
    have hn : n ∉ names upper := fun hmem => by
      obtain ⟨g, hg, rfl⟩ := List.mem_map.1 hmem
      exact lt_irrefl _ (hfirst g hg)
    refine (ih hrest (h.insert n v)).trans ?_
    simp only [mem_insert h, names, List.map_cons, List.mem_cons, not_or]
    constructor
    · rintro (hf | ⟨rfl | ⟨hf, hne⟩, hnot⟩)
      · exact .inl (.inr hf)
      · exact .inl (.inl rfl)
      · exact .inr ⟨hf, hne, hnot⟩
    · rintro ((rfl | hf) | ⟨hf, hne, hnot⟩)
      · exact .inr ⟨.inl rfl, hn⟩
      · exact .inl hf
      · exact .inr ⟨.inr ⟨hf, hne⟩, hnot⟩

/-! ## Records of fields in any order -/

theorem ascending_ofList (fields : List (String × α)) : Ascending (ofList fields) :=
  Ascending.foldl_insert List.Pairwise.nil fields

theorem get?_foldl_insert_of_notMem {name : String} {upper : List (String × α)}
    (h : name ∉ upper.map (·.1)) (record : Record α) :
    get? (upper.foldl (fun all (name, value) => Record.insert name value all) record) name =
      get? record name := by
  induction upper generalizing record with
  | nil => rfl
  | cons field upper ih =>
    rw [List.map_cons, List.mem_cons, not_or] at h
    rw [List.foldl_cons, ih h.2, get?_insert, if_neg h.1]

/-- Of several fields with one name, the last counts. -/
theorem get?_ofList {name : String} {behind : List (String × α)} (h : name ∉ behind.map (·.1))
    (front : List (String × α)) (value : α) :
    get? (ofList (front ++ (name, value) :: behind)) name = some value := by
  rw [ofList, List.foldl_append, List.foldl_cons, get?_foldl_insert_of_notMem h, get?_insert,
    if_pos rfl]

/-! ## Records in order -/

/-- A field with a name behind all others is the last one. -/
theorem insert_last {name : String} {value : α} (h : ∀ f ∈ record, f.1 < name) :
    insert name value record = record ++ [(name, value)] := by
  induction record with
  | nil => rfl
  | cons field record ih =>
    obtain ⟨n, v⟩ := field
    have hn : n < name := h _ (List.mem_cons_self ..)
    rw [insert, if_neg (lt_asymm hn), if_neg hn.ne, ih fun f hf => h f (List.mem_cons_of_mem _ hf),
      List.cons_append]

/-- A record is the record of its fields. -/
theorem Ascending.ofList_eq (h : record.Ascending) : ofList record = record := by
  have fold (front behind : Record α) (h : Ascending (front ++ behind)) :
      behind.foldl (fun all (name, value) => Record.insert name value all) front =
        front ++ behind := by
    induction behind generalizing front with
    | nil => exact (List.append_nil _).symm
    | cons field behind ih =>
      obtain ⟨name, value⟩ := field
      have hlast : ∀ f ∈ front, f.1 < name := fun f hf =>
        (List.pairwise_append.1 h).2.2 f hf (name, value) (List.mem_cons_self ..)
      rw [List.foldl_cons]
      dsimp only
      rw [insert_last hlast, ih _ (by simpa using h), List.append_assoc]
      rfl
  exact fold [] record h

/-- Of the fields that a choice leaves, the last one has the greatest name. -/
theorem getLast?_filter (h : record.Ascending) {p : String × α → Bool} (hf : f ∈ record)
    (hp : p f = true) (hmax : ∀ g ∈ record, p g = true → g.1 ≤ f.1) :
    (record.filter p).getLast? = some f := by
  have hmem : f ∈ record.filter p := List.mem_filter.2 ⟨hf, hp⟩
  have hpairs : (record.filter p).Pairwise (·.1 < ·.1) := List.Pairwise.filter p h
  obtain ⟨front, last, heq⟩ :=
    (List.eq_nil_or_concat' (record.filter p)).resolve_left (List.ne_nil_of_mem hmem)
  have hlast : last ∈ record ∧ p last = true :=
    List.mem_filter.1 (heq ▸ List.mem_append_right front (List.mem_singleton_self last))
  rw [heq] at hmem hpairs ⊢
  rw [List.getLast?_concat]
  rcases List.mem_append.1 hmem with hfront | hf
  · have hlt := (List.pairwise_append.1 hpairs).2.2 f hfront last (List.mem_singleton_self last)
    exact absurd (hmax last hlast.1 hlast.2) (not_le.2 hlt)
  · rw [List.mem_singleton.1 hf]

end ScriptHost.Record
