import ScriptHost.Proofs.Route.Expression
import ScriptHost.Proofs.Route.Template

/-!
# What a route captures

A pattern whose holes have distinct names fits a path if and only if the path comes out when the
holes are filled, and it captures the filling that gives each hole, from the left, as much as
possible.

* `Record.get?_ofList_eq_some_iff` — a record of fields with distinct names has just these fields.
* `RoutePattern.capture?_expressionOf` — the expression that a template writes captures what the
  template does.
* `RoutePattern.capture_of_distinct_holes` — what the pattern that a text writes captures.
-/

set_option autoImplicit false

namespace ScriptHost

namespace Record

variable {α : Type} {fields : List (String × α)} {name : String} {value : α}

theorem get?_foldl_of_notMem (record : Record α) (h : name ∉ fields.map (·.1)) :
    get? (fields.foldl (fun record (n, v) => insert n v record) record) name =
      record.get? name := by
  induction fields generalizing record with
  | nil => rfl
  | cons field fields ih =>
    rw [List.map_cons, List.mem_cons, not_or] at h
    rw [List.foldl_cons, ih _ h.2, get?_insert, if_neg h.1]

theorem get?_foldl_of_mem (record : Record α) (hdistinct : (fields.map (·.1)).Nodup)
    (h : (name, value) ∈ fields) :
    get? (fields.foldl (fun record (n, v) => insert n v record) record) name = some value := by
  induction fields generalizing record with
  | nil => cases h
  | cons field fields ih =>
    obtain ⟨hnew, hdistinct⟩ := List.nodup_cons.1 hdistinct
    rw [List.foldl_cons]
    rcases List.mem_cons.1 h with rfl | h
    · rw [get?_foldl_of_notMem _ hnew, get?_insert, if_pos rfl]
    · exact ih _ hdistinct h

/-- A record of fields with distinct names has just these fields. -/
theorem get?_ofList_eq_some_iff (hdistinct : (fields.map (·.1)).Nodup) :
    get? (ofList fields) name = some value ↔ (name, value) ∈ fields := by
  constructor
  · intro h
    by_cases hmem : name ∈ fields.map (·.1)
    · obtain ⟨⟨n, v⟩, hfield, rfl⟩ := List.mem_map.1 hmem
      rw [ofList, get?_foldl_of_mem [] hdistinct hfield] at h
      cases h
      exact hfield
    · rw [ofList, get?_foldl_of_notMem [] hmem] at h
      cases h
  · exact get?_foldl_of_mem [] hdistinct

end Record

namespace RoutePattern

open RouteTemplate

variable {R : Regex} {parts : List RoutePart}

theorem capture?_template (parts : List RoutePart) (path : String) :
    (template parts : RoutePattern R).capture? path =
      (fill? parts path.toList).map fun filling =>
        Record.ofList (filling.map fun (name, cs) => (String.ofList name, String.ofList cs)) :=
  Option.map_map ..

/-- The expression that a template writes captures what the template does. -/
theorem capture?_expressionOf (parts : List RoutePart) (path : String) :
    (expression (.seq .start (expressionOf parts)) : RoutePattern dialect).capture? path =
      (template parts : RoutePattern R).capture? path := by
  rw [capture?_template]
  change (((Expression.seq .start (expressionOf parts)).find? path.toList).map fun captured =>
    captured.reverse.map fun group => (group.1, String.ofList group.2)).map Record.ofList = _
  rw [find?_expressionOf, Option.map_map, Option.map_map]
  refine congrArg (Option.map · _) (funext fun filling => ?_)
  simp [Function.comp_def]

/-- The fields that a filling is captured as. -/
theorem mem_captured_iff {filling : List (List Char × List Char)} {name value : String} :
    (name, value) ∈ filling.map (fun (name, cs) => (String.ofList name, String.ofList cs)) ↔
      (name.toList, value.toList) ∈ filling := by
  rw [List.mem_map]
  constructor
  · rintro ⟨⟨n, v⟩, hmem, heq⟩
    cases heq
    rwa [String.toList_ofList, String.toList_ofList]
  · intro hmem
    exact ⟨_, hmem, by simp⟩

/-- **What a pattern captures.**  It fits a path if and only if the path comes out when the holes
are filled, each with something that is neither empty nor has a slash in it; it captures one such
filling, and all others fall short of this one.  The regular expression that the pattern writes
captures the same. -/
theorem capture_of_distinct_holes {text : String} (hread : Scanned text.toList parts)
    (hnames : ∀ name ∈ holes parts, isHoleName name = true) (hdistinct : (holes parts).Nodup) :
    ∃ (form : RoutePattern R) (e : Expression), ofText? text = some form ∧
      Expression.read? isHoleName (source parts) = some e ∧
      ∀ path : String,
        (expression e : RoutePattern dialect).capture? path = form.capture? path ∧
        ((form.capture? path).isSome = true ↔ ∃ pieces, Fills parts pieces path.toList) ∧
        ∀ captured, form.capture? path = some captured →
          ∃ pieces, Fills parts pieces path.toList ∧
            (∀ others, Fills parts others path.toList → others = pieces ∨ Shorter others pieces) ∧
            ∀ name value : String, captured.get? name = some value ↔
              (name.toList, value.toList) ∈ (holes parts).zip pieces := by
  have hproper : ProperNames (holes parts) := ⟨hnames, hdistinct⟩
  have hform : ofText? text = some (template parts : RoutePattern R) := by
    rw [ofText?, scanned_iff.1 hread, if_pos (List.all_eq_true.2 hnames), if_pos hdistinct]
  obtain ⟨e, he, hcaptures⟩ := compile?_spliced Expression.regex_documented
    (by rwa [map_groupName hproper.gt_notMem])
    fun inside hinside => ordinary_demand (hproper.gt_notMem inside hinside)
  have hsame (path : String) : (expression e : RoutePattern dialect).capture? path =
      (template parts : RoutePattern R).capture? path := by
    rw [← capture?_expressionOf, ← spliced_eq_expressionOf hproper.gt_notMem]
    exact congrArg (Option.map _) (hcaptures path)
  refine ⟨template parts, e, hform, he, fun path => ⟨hsame path, ?_, ?_⟩⟩
  · rw [capture?_template, Option.isSome_map]
    constructor
    · intro hsome
      obtain ⟨filling, hfill⟩ := Option.isSome_iff_exists.1 hsome
      exact ⟨_, (fill?_sound hfill).1⟩
    · rintro ⟨pieces, hfills⟩
      obtain ⟨filling, hfill, -⟩ := fill?_complete hfills
      exact Option.isSome_iff_exists.2 ⟨filling, hfill⟩
  · intro captured hcaptured
    rw [capture?_template] at hcaptured
    obtain ⟨filling, hfill, rfl⟩ := Option.map_eq_some_iff.1 hcaptured
    obtain ⟨hfills, hholes⟩ := fill?_sound hfill
    refine ⟨filling.map (·.2), hfills, fun others hothers => ?_, fun name value => ?_⟩
    · obtain ⟨filling', hfill', hbest⟩ := fill?_complete hothers
      rw [hfill] at hfill'
      cases hfill'
      exact hbest
    · have hfields : ((filling.map fun (name, cs) =>
          (String.ofList name, String.ofList cs)).map (·.1)).Nodup := by
        have hstrings : ((holes parts).map String.ofList).Nodup :=
          List.Pairwise.map _ (fun _ _ hne heq => hne (String.ofList_injective heq)) hdistinct
        rw [← hholes, List.map_map] at hstrings
        rw [List.map_map]
        exact hstrings
      rw [Record.get?_ofList_eq_some_iff hfields, mem_captured_iff, ← hholes, List.zip_map']
      simp

/-- Either dot could end the name; the name gets as much as possible.  The brace at the end is never
closed, so it stands for itself. -/
theorem capture_of_distinct_holes_two_dots :
    ∃ form : RoutePattern dialect,
      ofText? "files/\x7bname\x7d.\x7bending\x7d/\x7b" = some form ∧
      (form.capture? "files/a.b.c/\x7b").isSome = true ∧
      form.capture? "files/a.b.c/\x7b" = some [("ending", "c"), ("name", "a.b")] := by
  have hread := scanned_iff.2 (rfl : RoutePart.scan
    "files/\x7bname\x7d.\x7bending\x7d/\x7b".toList = _)
  have hnames : ∀ name ∈ holes (RoutePart.scan "files/\x7bname\x7d.\x7bending\x7d/\x7b".toList),
      isHoleName name = true := by decide +kernel
  have hdistinct : (holes (RoutePart.scan
      "files/\x7bname\x7d.\x7bending\x7d/\x7b".toList)).Nodup := by decide +kernel
  obtain ⟨form, _, hform, -, hcapture⟩ := capture_of_distinct_holes hread hnames hdistinct
  have hfills : Fills (RoutePart.scan "files/\x7bname\x7d.\x7bending\x7d/\x7b".toList)
      ["a".toList, "b.c".toList] "files/a.b.c/\x7b".toList :=
    ⟨by decide +kernel, by decide +kernel, by decide +kernel⟩
  refine ⟨form, hform, (hcapture _).2.1.2 ⟨_, hfills⟩, ?_⟩
  rw [ofText?, if_pos (List.all_eq_true.2 hnames), if_pos hdistinct] at hform
  cases hform
  decide +kernel

end RoutePattern

end ScriptHost
