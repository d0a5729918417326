import ScriptHost.Proofs.Route.Capture
import ScriptHost.Proofs.Route.Order

/-!
# Patterns with misnamed holes

A pattern writes out to a regular expression in which the text of a hole stands as it is, and
whether that text is a name is left to the library that reads the expression.  So a hole that has no
name is refused only if nothing in it goes on, behind a name and a `>`, with something that the
library takes for a part of the expression.

* `RouteTemplate.exists_spliced_ends_iff` — the paths that the expression matches, if all that
  stands behind the names is ordinary text.
* `RouteTemplate.Escapes` — the first hole at fault goes on, and the expression can be read.
* `Router.refuses_iff_not_escapes` — what a router does with any pattern.
-/

set_option autoImplicit false

namespace ScriptHost

/-- The part without what stands in its hole. -/
def RoutePart.blank : RoutePart → RoutePart
  | .text cs => .text cs
  | .hole _ => .hole []

namespace RouteTemplate

open Expression

variable {R : Regex} {parts : List RoutePart} {path rest : List Char} {pieces : List (List Char)}
  {s : Spot}

theorem fills_blank_iff : Fills (parts.map .blank) pieces path ↔ Fills parts pieces path := by
  induction parts generalizing pieces path with
  | nil => rfl
  | cons part parts ih =>
    cases part with
    | text cs => simp only [List.map_cons, RoutePart.blank, fills_text_iff, ih]
    | hole inside => simp only [List.map_cons, RoutePart.blank, fills_hole_iff, ih]

/-! ## Matching -/

theorem mem_ends_seq_iff {first second : Expression} {t : Spot} :
    t ∈ (Expression.seq first second).ends s ↔ ∃ u ∈ first.ends s, t ∈ second.ends u :=
  List.mem_flatMap

/-- The template that is meant if what stands behind the name in a hole is ordinary text. -/
def spelled : List RoutePart → List RoutePart
  | [] => []
  | .text cs :: parts => .text cs :: spelled parts
  | .hole inside :: parts => .text (demand inside) :: .hole (groupName inside) :: spelled parts

/-- What a segment leaves of a text: all that stands behind a piece of it. -/
theorem mem_rests_segment_iff : rest ∈ (segment.ends s).map (·.rest) ↔
    ∃ piece, s.rest = piece ++ rest ∧ piece ≠ [] ∧ '/' ∉ piece := by
  rw [ends_segment, placesBehind, List.map_map, List.mem_map]
  simp only [List.mem_reverse, List.mem_range, Function.comp_apply]
  constructor
  · rintro ⟨k, hk, rfl⟩
    refine ⟨s.rest.take (k + 1), (List.take_append_drop ..).symm, ?_, slash_notMem_take hk⟩
    rw [Ne, List.take_eq_nil_iff]
    rintro (hzero | hnil)
    · omega
    · rw [hnil] at hk
      exact absurd hk (Nat.not_lt_zero k)
  · rintro ⟨piece, hrest, hsome, hslash⟩
    have hpos := List.length_pos_iff.2 hsome
    have hle := length_le_takeWhile rest hslash
    rw [← hrest] at hle
    refine ⟨piece.length - 1, by omega, ?_⟩
    rw [Nat.sub_add_cancel hpos, hrest, List.drop_left]

theorem mem_ends_literally_iff {e : Expression} {cs : List Char} {t : Spot} :
    t ∈ (literally cs e).ends s ↔
      ∃ rest, s.rest = cs ++ rest ∧
        t ∈ e.ends { s with atStart := s.atStart && cs.isEmpty, rest } := by
  rw [ends_literally]
  cases hbehind : behind? cs s.rest with
  | none =>
    refine iff_of_false List.not_mem_nil ?_
    rintro ⟨rest, hrest, -⟩
    rw [behind?_eq_some_iff.2 hrest] at hbehind
    cases hbehind
  | some rest =>
    rw [behind?_eq_some_iff.1 hbehind]
    simp only [List.append_cancel_left_eq, exists_eq_left']

/-- What a hole leaves of a text: all that stands behind what it demands and a piece of the text. -/
theorem mem_rests_hole_iff {inside : List Char} :
    rest ∈ ((Expression.group (String.ofList (groupName inside))
        (literally (demand inside) segment)).ends s).map (·.rest) ↔
      ∃ piece, s.rest = demand inside ++ (piece ++ rest) ∧ piece ≠ [] ∧ '/' ∉ piece := by
  have hgroup : ((Expression.group (String.ofList (groupName inside))
      (literally (demand inside) segment)).ends s).map (·.rest) =
        ((literally (demand inside) segment).ends s).map (·.rest) := List.map_map
  rw [hgroup, List.mem_map]
  simp only [mem_ends_literally_iff]
  constructor
  · rintro ⟨t, ⟨behind, hbehind, ht⟩, rfl⟩
    obtain ⟨piece, hrest, hpiece⟩ := mem_rests_segment_iff.1 (List.mem_map_of_mem ht)
    exact ⟨piece, hbehind.trans (congrArg _ hrest), hpiece⟩
  · rintro ⟨piece, hrest, hpiece⟩
    obtain ⟨t, ht, hteq⟩ := List.mem_map.1 (mem_rests_segment_iff
      (s := { s with atStart := s.atStart && (demand inside).isEmpty, rest := piece ++ rest }).2
        ⟨piece, rfl, hpiece⟩)
    exact ⟨t, ⟨_, hrest, ht⟩, hteq⟩

/-- **What the expression of a template matches**, if what stands behind the names in its holes is
ordinary text: the paths that fill the template with that text in front of the holes. -/
theorem exists_spliced_ends_iff :
    (∃ t, t ∈ (spliced parts).ends s) ↔ ∃ pieces, Fills (spelled parts) pieces s.rest := by
  induction parts generalizing s with
  | nil =>
    obtain ⟨atStart, rest, captured⟩ := s
    cases rest with
    | nil => exact iff_of_true ⟨_, List.mem_singleton_self _⟩ ⟨[], fills_nil_iff.2 ⟨rfl, rfl⟩⟩
    | cons c cs =>
      refine iff_of_false (fun ⟨_, ht⟩ => absurd ht List.not_mem_nil) ?_
      rintro ⟨pieces, hfills⟩
      cases (fills_nil_iff.1 hfills).2
  | cons part parts ih =>
    cases part with
    | text cs =>
      simp only [spliced, spelled, mem_ends_literally_iff, fills_text_iff]
      constructor
      · rintro ⟨t, rest, hrest, ht⟩
        obtain ⟨pieces, hfills⟩ := ih.1 ⟨t, ht⟩
        exact ⟨pieces, rest, hrest, hfills⟩
      · rintro ⟨pieces, rest, hrest, hfills⟩
        obtain ⟨t, ht⟩ := (ih (s := { s with atStart := s.atStart && cs.isEmpty, rest })).2
          ⟨pieces, hfills⟩
        exact ⟨t, rest, hrest, ht⟩
    | hole inside =>
      simp only [spliced, spelled, mem_ends_seq_iff, fills_text_iff, fills_hole_iff]
      constructor
      · rintro ⟨t, u, hu, ht⟩
        obtain ⟨piece, hrest, hpiece⟩ := mem_rests_hole_iff.1 (List.mem_map_of_mem hu)
        obtain ⟨pieces, hfills⟩ := ih.1 ⟨t, ht⟩
        exact ⟨piece :: pieces, _, hrest, piece, pieces, u.rest, rfl, rfl, hpiece, hfills⟩
      · rintro ⟨_, _, hrest, piece, pieces, rest, rfl, rfl, hpiece, hfills⟩
        obtain ⟨u, hu, rfl⟩ := List.mem_map.1 (mem_rests_hole_iff.2 ⟨piece, hrest, hpiece⟩)
        obtain ⟨t, ht⟩ := ih.2 ⟨pieces, hfills⟩
        exact ⟨t, u, hu, ht⟩

/-- An expression that begins with the mark of the start matches there or nowhere. -/
theorem isSome_find?_start_iff {e : Expression} {cs : List Char} :
    ((Expression.seq .start e).find? cs).isSome = true ↔ ∃ t, t ∈ e.ends ⟨true, cs, []⟩ := by
  have hends : (Expression.seq .start e).ends ⟨true, cs, []⟩ = e.ends ⟨true, cs, []⟩ :=
    List.append_nil _
  rw [find?]
  cases cs with
  | nil =>
    rw [find?.go, hends]
    cases e.ends ⟨true, [], []⟩ <;> simp
  | cons c cs =>
    rw [find?.go, hends]
    cases e.ends ⟨true, c :: cs, []⟩ with
    | nil => simp [find?_go_false]
    | cons t ts => simp

/-! ## Holes at fault -/

/-- The first hole at fault goes on, behind a name that it could have and a `>`, and with all that
stands in the pattern behind that name the pattern still writes an expression. -/
def Escapes (R : Regex) (parts : List RoutePart) : Prop :=
  ∃ earlier name more later, holes parts = earlier ++ (name ++ '>' :: more) :: later ∧
    ProperNames (earlier ++ [name]) ∧ (R.compile? (RoutePattern.source parts)).isSome = true

theorem exists_first_fault {names : List (List Char)} (h : ¬ProperNames names) :
    ∃ earlier name later, names = earlier ++ name :: later ∧ ProperNames earlier ∧
      ¬ProperNames (earlier ++ [name]) := by
  induction names using List.reverseRecOn with
  | nil => exact absurd ⟨nofun, List.nodup_nil⟩ h
  | append_singleton names name ih =>
    by_cases hnames : ProperNames names
    · exact ⟨names, name, [], rfl, hnames, h⟩
    · obtain ⟨earlier, fault, later, rfl, hfault⟩ := ih hnames
      exact ⟨earlier, fault, later ++ [name], by simp, hfault⟩

theorem exists_eq_groupName {inside : List Char} (h : '>' ∈ inside) :
    ∃ more, inside = groupName inside ++ '>' :: more := by
  induction inside with
  | nil => exact absurd h List.not_mem_nil
  | cons c inside ih =>
    by_cases hc : c = '>'
    · exact ⟨inside, by simp [groupName, hc]⟩
    · obtain ⟨more, hmore⟩ := ih ((List.mem_cons.1 h).resolve_left (Ne.symm hc))
      exact ⟨more, by simpa [groupName, hc] using hmore⟩

/-- A template with a hole at fault writes an expression only if it escapes. -/
theorem compile?_eq_none_of_not_escapes (hR : R.Documented) (hproper : ¬ProperNames (holes parts))
    (h : ¬Escapes R parts) : R.compile? (RoutePattern.source parts) = none := by
  obtain ⟨earlier, inside, later, hholes, hearlier, hinside⟩ := exists_first_fault hproper
  have hgroups : earlier.map groupName = earlier := map_groupName hearlier.gt_notMem
  by_cases hgood : ProperNames (earlier ++ [groupName inside])
  · -- the name is in order, so the hole has more in it
    have hmem : '>' ∈ inside := by
      by_contra hclosed
      rw [groupName_eq_self hclosed] at hgood
      exact hinside hgood
    obtain ⟨more, hmore⟩ := exists_eq_groupName hmem
    rw [← Option.not_isSome_iff_eq_none]
    intro hread
    exact h ⟨earlier, groupName inside, more, later, by rw [← hmore, hholes], hgood, hread⟩
  · refine compile?_misnamed hR hholes ?_ ?_ ?_
    · rwa [hgroups]
    · exact fun hole hhole => ordinary_demand (hearlier.gt_notMem hole hhole)
    · rwa [List.map_append, hgroups]

/-- If what stands behind the names is ordinary text, the names decide. -/
theorem compile?_eq_none_of_ordinary (hR : R.Documented)
    (hdemands : ∀ inside ∈ holes parts, Ordinary (demand inside))
    (hproper : ¬ProperNames ((holes parts).map groupName)) :
    R.compile? (RoutePattern.source parts) = none := by
  obtain ⟨earlier, name, later, hnames, hearlier, hname⟩ := exists_first_fault hproper
  obtain ⟨before, behind, hholes, rfl, hbehind⟩ := List.map_eq_append_iff.1 hnames
  obtain ⟨inside, after, rfl, rfl, -⟩ := List.map_eq_cons_iff.1 hbehind
  refine compile?_misnamed hR hholes hearlier (fun hole hhole => hdemands hole ?_) ?_
  · rw [hholes]
    exact List.mem_append_left _ hhole
  · rwa [List.map_append]

theorem fills_spelled_iff (h : ∀ inside ∈ holes parts, '>' ∉ inside) :
    Fills (spelled parts) pieces path ↔ Fills parts pieces path := by
  induction parts generalizing pieces path with
  | nil => rfl
  | cons part parts ih =>
    cases part with
    | text cs => simp only [spelled, fills_text_iff, ih h]
    | hole inside =>
      obtain ⟨hinside, hothers⟩ := List.forall_mem_cons.1 h
      simp only [spelled, fills_text_iff, fills_hole_iff, demand_eq_nil hinside, List.nil_append,
        exists_eq_left', ih hothers]

end RouteTemplate

namespace RoutePattern

open RouteTemplate Expression

variable {R : Regex} {text : String} {parts : List RoutePart}

/-- With proper names in the holes, a text writes a template. -/
theorem ofText?_of_proper (hread : Scanned text.toList parts)
    (hproper : ProperNames (holes parts)) :
    ofText? text = some (template parts : RoutePattern R) := by
  rw [ofText?, scanned_iff.1 hread, if_pos (List.all_eq_true.2 hproper.valid),
    if_pos hproper.distinct]

/-- Without, it writes a pattern if all that it writes is an expression. -/
theorem ofText?_of_not_proper (hread : Scanned text.toList parts)
    (hproper : ¬ProperNames (holes parts)) :
    (ofText? text : Option (RoutePattern R)) = if (holes parts).all isHoleName then none
      else (R.compile? (source parts)).map .expression := by
  rw [ofText?, scanned_iff.1 hread]
  split
  · rename_i hvalid
    exact if_neg fun hdistinct => hproper ⟨List.all_eq_true.1 hvalid, hdistinct⟩
  · rfl

/-- **What is no pattern.**  A text is refused if a hole in it is at fault, unless it escapes. -/
theorem ofText?_eq_none_iff (hR : R.Documented) (hread : Scanned text.toList parts) :
    (ofText? text : Option (RoutePattern R)) = none ↔
      ¬ProperNames (holes parts) ∧ ¬Escapes R parts := by
  by_cases hproper : ProperNames (holes parts)
  · rw [ofText?_of_proper hread hproper]
    exact iff_of_false nofun fun h => h.1 hproper
  · rw [ofText?_of_not_proper hread hproper, and_iff_right hproper]
    constructor
    · rintro hnone ⟨earlier, name, more, later, hholes, -, hsome⟩
      split at hnone
      · -- a hole with a `>` in it is no name
        rename_i hvalid
        refine gt_notMem_of_isHoleName (List.all_eq_true.1 hvalid (name ++ '>' :: more) ?_) ?_
        · simp [hholes]
        · simp
      · rw [Option.map_eq_none_iff.1 hnone] at hsome
        cases hsome
    · intro hescapes
      rw [compile?_eq_none_of_not_escapes hR hproper hescapes]
      exact ite_self none

/-- With ordinary text behind proper names, it writes the expression for both. -/
theorem ofText?_of_ordinary (hR : R.Documented) (hread : Scanned text.toList parts)
    (hproper : ¬ProperNames (holes parts))
    (hdemands : ∀ inside ∈ holes parts, Ordinary (demand inside))
    (hgroups : ProperNames ((holes parts).map groupName)) :
    ∃ e, ofText? text = some (expression e : RoutePattern R) ∧ ∀ path : String,
      (expression e : RoutePattern R).capture? path =
        (expression (.seq .start (spliced parts)) : RoutePattern dialect).capture? path := by
  obtain ⟨e, he, hcaptures⟩ := compile?_spliced hR hgroups hdemands
  refine ⟨e, ?_, fun path => congrArg (Option.map _) (hcaptures path)⟩
  rw [ofText?_of_not_proper hread hproper, he]
  refine if_neg fun hvalid => hproper ?_
  rwa [map_groupName fun inside hinside =>
    gt_notMem_of_isHoleName (List.all_eq_true.1 hvalid inside hinside)] at hgroups

/-- Such a pattern fits the paths that fill the template with the text in front of the holes. -/
theorem exists_ofText?_of_ordinary (hR : R.Documented) (hread : Scanned text.toList parts)
    (hdemands : ∀ inside ∈ holes parts, Ordinary (demand inside))
    (hgroups : ProperNames ((holes parts).map groupName)) :
    ∃ form : RoutePattern R, ofText? text = some form ∧ ∀ path : String,
      (form.capture? path).isSome = true ↔ ∃ pieces, Fills (spelled parts) pieces path.toList := by
  have hfits (path : String) :
      ((expression (.seq .start (spliced parts)) : RoutePattern dialect).capture? path).isSome =
        true ↔ ∃ pieces, Fills (spelled parts) pieces path.toList := by
    change (((Expression.seq .start (spliced parts)).find? path.toList).map _ |>.map _).isSome =
      true ↔ _
    rw [Option.isSome_map, Option.isSome_map, isSome_find?_start_iff, exists_spliced_ends_iff]
  by_cases hproper : ProperNames (holes parts)
  · refine ⟨_, ofText?_of_proper hread hproper, fun path => ?_⟩
    rw [← capture?_expressionOf, ← spliced_eq_expressionOf hproper.gt_notMem]
    exact hfits path
  · obtain ⟨e, hform, hcaptures⟩ := ofText?_of_ordinary hR hread hproper hdemands hgroups
    refine ⟨_, hform, fun path => ?_⟩
    rw [hcaptures]
    exact hfits path

end RoutePattern

namespace Router

open RouteTemplate Expression

variable {R : Regex} {router : Router R} {a : Addition} {parts : List RoutePart}

/-- The router refuses the pattern and is left as it is. -/
def Refuses (router : Router R) (a : Addition) : Prop :=
  router.add a.name a.pattern a.method = .error (.invalidPattern a.pattern) ∧
    router.adding a = router

/-- The router takes the pattern, for a route that fits the paths that fill `parts`. -/
def Takes (router : Router R) (a : Addition) (parts : List RoutePart) : Prop :=
  ∃ r, a.route? R = some r ∧ router.add a.name a.pattern a.method = .ok ⟨place r router.routes⟩ ∧
    ∀ path : String, Fits path r ↔ ∃ pieces, Fills parts pieces path.toList

theorem refuses_iff : router.Refuses a ↔
    (RoutePattern.ofText? a.pattern : Option (RoutePattern R)) = none := by
  rw [Refuses, adding, add]
  cases (RoutePattern.ofText? a.pattern : Option (RoutePattern R)) <;> simp

theorem takes_of_form {form : RoutePattern R} (hform : RoutePattern.ofText? a.pattern = some form)
    (hfits : ∀ path : String, (form.capture? path).isSome = true ↔
      ∃ pieces, Fills parts pieces path.toList) : router.Takes a parts := by
  refine ⟨_, Option.map_eq_some_iff.2 ⟨form, hform, rfl⟩, ?_, fun path => ?_⟩
  · rw [add, hform]
  · rw [Fits, Route.match?, Option.isSome_map]
    exact hfits path

/-- **What a router does with a pattern.**  If its holes have proper names, the router takes it, and
what stands in the holes makes no difference to the paths that it fits.  If not, the router refuses
it and is left as it is, unless the first hole at fault goes on behind a name and a `>` and the
whole still writes an expression.  If all that stands behind the names in the holes is ordinary
text, it is the names in front of it that decide, and the text is demanded of the paths. -/
theorem refuses_iff_not_escapes (hR : R.Documented) (router : Router R)
    (hread : Scanned a.pattern.toList parts) :
    (ProperNames (holes parts) → router.Takes a (parts.map .blank)) ∧
      (¬ProperNames (holes parts) → (router.Refuses a ↔ ¬Escapes R parts)) ∧
      ((∀ inside ∈ holes parts, Ordinary (demand inside)) →
        (ProperNames ((holes parts).map groupName) → router.Takes a (spelled parts)) ∧
        (¬ProperNames ((holes parts).map groupName) → router.Refuses a)) := by
  refine ⟨fun hproper => ?_, fun hproper => ?_,
    fun hdemands => ⟨fun hproper => ?_, fun hproper => ?_⟩⟩
  · obtain ⟨form, hform, hfits⟩ := RoutePattern.exists_ofText?_of_ordinary hR hread
      (fun inside hinside => ordinary_demand (hproper.gt_notMem inside hinside))
      (by rwa [map_groupName hproper.gt_notMem])
    refine takes_of_form hform fun path => ?_
    rw [hfits]
    simp only [fills_blank_iff, fills_spelled_iff hproper.gt_notMem]
  · rw [refuses_iff, RoutePattern.ofText?_eq_none_iff hR hread, and_iff_right hproper]
  · obtain ⟨form, hform, hfits⟩ := RoutePattern.exists_ofText?_of_ordinary hR hread hdemands hproper
    exact takes_of_form hform hfits
  · rw [refuses_iff, RoutePattern.ofText?_eq_none_iff hR hread]
    refine ⟨fun hholes => hproper ?_, ?_⟩
    · rwa [map_groupName hholes.gt_notMem]
    · rintro ⟨earlier, name, more, later, -, -, hsome⟩
      rw [compile?_eq_none_of_ordinary hR hdemands hproper] at hsome
      cases hsome

/-- A hole without a name is refused, and the route that there is stays.  A hole that goes on is
taken. -/
theorem refuses_iff_not_escapes_nameless :
    (ofAdditions RoutePattern.dialect [⟨"user", "users/\x7bid\x7d", none⟩]).Refuses
        ⟨"bad", "x/\x7b\x7d", none⟩ ∧
      (ofAdditions RoutePattern.dialect []).Takes ⟨"odd", "x/\x7ba>b\x7d", none⟩
        [.text "x/".toList, .text "b>".toList, .hole "a".toList, .text []] := by
  have hempty : Scanned "x/\x7b\x7d".toList [.text "x/".toList, .hole [], .text []] :=
    scanned_iff.2 (by decide +kernel)
  have hodd : Scanned "x/\x7ba>b\x7d".toList [.text "x/".toList, .hole "a>b".toList, .text []] :=
    scanned_iff.2 (by decide +kernel)
  constructor
  · refine ((refuses_iff_not_escapes (a := ⟨"bad", _, none⟩) regex_documented _ hempty).2.2
      (List.forall_mem_singleton.2 (by decide))).2 fun hproper => ?_
    exact absurd (hproper.valid [] (by decide)) (by decide)
  · exact ((refuses_iff_not_escapes (a := ⟨"odd", _, none⟩) regex_documented _ hodd).2.2
      (List.forall_mem_singleton.2 (by decide))).1 ⟨by decide +kernel, by decide +kernel⟩

/-- A pattern whose hole goes on behind a name is taken, and what the hole goes on with is demanded
of the paths. -/
theorem hole_goes_on :
    Scanned "x/\x7ba>b\x7d".toList [.text "x/".toList, .hole "a>b".toList, .text []] ∧
      isHoleName "a>b".toList = false ∧
      ∃ router : Router RoutePattern.dialect, add {} "r" "x/\x7ba>b\x7d" none = .ok router ∧
        router.resolve? "x/42" = none ∧
        router.resolve? "x/b>42" = some ⟨"r", [("a", "b>42")]⟩ := by
  have hread : Scanned "x/\x7ba>b\x7d".toList [.text "x/".toList, .hole "a>b".toList, .text []] :=
    scanned_iff.2 (by decide +kernel)
  have hvalid : isHoleName "a>b".toList = false := by decide +kernel
  have hmisnamed : ¬ProperNames (holes [.text "x/".toList, .hole "a>b".toList, .text []]) :=
    fun hproper => absurd (hproper.valid _ List.mem_cons_self) (ne_true_of_eq_false hvalid)
  obtain ⟨e, hform, hcaptures⟩ := RoutePattern.ofText?_of_ordinary regex_documented hread hmisnamed
    (List.forall_mem_singleton.2 (by decide)) ⟨by decide +kernel, by decide +kernel⟩
  have hresolve (path : String) : resolve? ⟨[⟨"r", "x/\x7ba>b\x7d", .expression e, none⟩]⟩ path =
      ((RoutePattern.expression (.seq .start (spliced [.text "x/".toList, .hole "a>b".toList,
        .text []])) : RoutePattern RoutePattern.dialect).capture? path).map (⟨"r", ·⟩) := by
    rw [← hcaptures]
    simp [resolve?, Route.match?]
  refine ⟨hread, hvalid, _, by rw [add, hform], ?_, ?_⟩
  · exact (hresolve "x/42").trans (by decide +kernel)
  · exact (hresolve "x/b>42").trans (by decide +kernel)

end Router

end ScriptHost
