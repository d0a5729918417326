import Mathlib
import ScriptHost.Route.Router

/-!
# The order of routes

Routes are tried in the order in which their names have come, and adding a name again puts another
route in its place.  So what a router does with a request depends on the additions that have
succeeded only through the order of their names and the last addition of each name.

* `Router.Standing` — what additions leave, kept by one more addition (`Router.Standing.adding`).
* `Router.First` — the first route for which something holds.
* `Router.routing_of_additions` — what the router makes of a method and a path.
-/

set_option autoImplicit false

namespace ScriptHost

namespace Router

variable {R : Regex}

/-! ## Additions -/

/-- What a router is asked to add. -/
structure Addition where
  name : String
  pattern : String
  method : Option String

/-- The route that an addition comes to, if its pattern can be read. -/
def Addition.route? (R : Regex) (a : Addition) : Option (Route R) :=
  (RoutePattern.ofText? a.pattern).map fun form =>
    { name := a.name, pattern := a.pattern, form, method := a.method.map Text.upper }

theorem Addition.name_of_route? {a : Addition} {r : Route R} (h : a.route? R = some r) :
    r.name = a.name := by
  obtain ⟨form, -, rfl⟩ := Option.map_eq_some_iff.1 h
  rfl

/-- The case of its letters does not matter in the method that a route is added with, nor in the one
that it is asked for. -/
theorem Addition.accepts_iff {a : Addition} {r : Route R} (h : a.route? R = some r)
    (method : String) :
    r.accepts method = true ↔ ∀ m ∈ a.method, Text.sameIgnoringCase m method = true := by
  obtain ⟨form, -, rfl⟩ := Option.map_eq_some_iff.1 h
  have hlower (m : String) : Text.lower (Text.upper m) = Text.lower m := by
    rw [Text.lower, Text.lower, Text.upper, String.map_map]
    simp [Function.comp_def]
  rw [Route.accepts]
  cases a.method with
  | none => simp
  | some m => simp [Text.sameIgnoringCase, hlower]

/-- A router after an addition; one that fails leaves it as it is. -/
def adding (router : Router R) (a : Addition) : Router R :=
  match router.add a.name a.pattern a.method with
  | .ok router' => router'
  | .error _ => router

/-- What additions come to, one after another. -/
def ofAdditions (R : Regex) (additions : List Addition) : Router R := additions.foldl adding {}

theorem adding_of_some {router : Router R} {a : Addition} {r : Route R} (h : a.route? R = some r) :
    router.adding a = ⟨place r router.routes⟩ := by
  obtain ⟨form, hform, rfl⟩ := Option.map_eq_some_iff.1 h
  rw [adding, add, hform]

theorem adding_of_none {router : Router R} {a : Addition} (h : a.route? R = none) :
    router.adding a = router := by
  rw [adding, add, Option.map_eq_none_iff.1 h]

/-! ## What additions leave -/

theorem names_place (r : Route R) (routes : List (Route R)) :
    (place r routes).map (·.name) =
      if r.name ∈ routes.map (·.name) then routes.map (·.name)
      else routes.map (·.name) ++ [r.name] := by
  induction routes with
  | nil => rfl
  | cons r' rest ih =>
    rw [place]
    by_cases hname : r'.name = r.name
    · simp [hname]
    · have hname' : r.name ≠ r'.name := Ne.symm hname
      rw [if_neg hname, List.map_cons, ih, List.map_cons]
      simp only [List.mem_cons, hname', false_or]
      split <;> rfl

/-- A route takes the place of the one with its name only. -/
theorem mem_place {r r' : Route R} {routes : List (Route R)}
    (hdistinct : (routes.map (·.name)).Nodup)
    (h : r' ∈ place r routes) : r' = r ∨ r' ∈ routes ∧ r'.name ≠ r.name := by
  induction routes with
  | nil => exact .inl (List.mem_singleton.1 h)
  | cons r₁ rest ih =>
    obtain ⟨hnew, hrest⟩ := List.nodup_cons.1 hdistinct
    rw [place] at h
    split at h
    · rename_i hname
      refine (List.mem_cons.1 h).imp_right fun hmem => ⟨List.mem_cons_of_mem _ hmem, fun heq => ?_⟩
      exact hnew (List.mem_map.2 ⟨r', hmem, heq.trans hname.symm⟩)
    · rename_i hname
      rcases List.mem_cons.1 h with rfl | h
      · exact .inr ⟨List.mem_cons_self, hname⟩
      · exact (ih hrest h).imp_right fun ⟨hmem, hne⟩ => ⟨List.mem_cons_of_mem _ hmem, hne⟩

theorem eraseDups_concat (names : List String) (name : String) :
    (names ++ [name]).eraseDups =
      if name ∈ names then names.eraseDups else names.eraseDups ++ [name] := by
  have hnew : [name].removeAll names = if name ∈ names then [] else [name] := by
    simp [List.removeAll, List.filter_cons]
  rw [List.eraseDups_append, hnew]
  split
  · exact List.append_nil _
  · rfl

/-- The routes that additions leave: their names are distinct and stand in the order in which they
have first been added, and each route is that of the last addition of its name that has succeeded.
-/
structure Standing (additions : List Addition) (routes : List (Route R)) : Prop where
  distinct : (routes.map (·.name)).Nodup
  names : routes.map (·.name) = ((additions.filterMap (Addition.route? R)).map (·.name)).eraseDups
  latest : ∀ r ∈ routes, ∃ earlier a later, additions = earlier ++ a :: later ∧
    a.route? R = some r ∧ ∀ b ∈ later, b.name = a.name → b.route? R = none

theorem Standing.adding {additions : List Addition} {router : Router R}
    (h : Standing additions router.routes) (a : Addition) :
    Standing (additions ++ [a]) (router.adding a).routes := by
  -- what is left of an earlier addition stays, unless this one succeeds and has its name
  have stays {r : Route R} (hr : r ∈ router.routes) (ha : r.name = a.name → a.route? R = none) :
      ∃ earlier a' later, additions ++ [a] = earlier ++ a' :: later ∧ a'.route? R = some r ∧
        ∀ b ∈ later, b.name = a'.name → b.route? R = none := by
    obtain ⟨earlier, a', later, rfl, hroute, hlater⟩ := h.latest r hr
    refine ⟨earlier, a', later ++ [a], by simp, hroute, ?_⟩
    refine List.forall_mem_append.2 ⟨hlater, List.forall_mem_singleton.2 fun hname => ha ?_⟩
    rw [Addition.name_of_route? hroute, hname]
  cases hroute : a.route? R with
  | none =>
    rw [adding_of_none hroute]
    refine ⟨h.distinct, ?_, fun r hr => stays hr fun _ => hroute⟩
    rw [h.names, List.filterMap_append, List.filterMap_cons_none hroute, List.filterMap_nil,
      List.append_nil]
  | some r =>
    rw [adding_of_some hroute]
    refine ⟨?_, ?_, fun r' hr' => ?_⟩
    · rw [names_place]
      split
      · exact h.distinct
      · rename_i hnew
        rw [List.nodup_append]
        refine ⟨h.distinct, List.nodup_singleton _, fun name hname name' hname' heq => hnew ?_⟩
        rwa [← List.mem_singleton.1 hname', ← heq]
    · have hmem : r.name ∈ router.routes.map (·.name) ↔
          r.name ∈ (additions.filterMap (Addition.route? R)).map (·.name) := by
        rw [h.names, List.mem_eraseDups]
      rw [names_place, List.filterMap_append, List.filterMap_cons_some hroute, List.filterMap_nil,
        List.map_append, List.map_singleton, eraseDups_concat, ← h.names]
      simp only [hmem]
    · rcases mem_place h.distinct hr' with rfl | ⟨hmem, hne⟩
      · exact ⟨additions, a, [], rfl, hroute, nofun⟩
      · exact stays hmem fun heq => absurd (heq.trans (Addition.name_of_route? hroute).symm) hne

theorem standing_ofAdditions (additions : List Addition) :
    Standing additions (ofAdditions R additions).routes := by
  induction additions using List.reverseRecOn with
  | nil => exact ⟨List.nodup_nil, rfl, nofun⟩
  | append_singleton additions a ih =>
    rw [ofAdditions, List.foldl_concat]
    exact ih.adding a

/-! ## What a router makes of a request -/

/-- The first of the routes for which something holds. -/
def First (p : Route R → Prop) (routes : List (Route R)) (r : Route R) : Prop :=
  ∃ earlier later, routes = earlier ++ r :: later ∧ p r ∧ ∀ r' ∈ earlier, ¬ p r'

theorem findSome?_eq_some_iff_first {α : Type} {f : Route R → Option α} {routes : List (Route R)}
    {v : α} : routes.findSome? f = some v ↔
      ∃ r, First (fun r => (f r).isSome = true) routes r ∧ f r = some v := by
  rw [List.findSome?_eq_some_iff]
  constructor
  · rintro ⟨earlier, r, later, hroutes, hr, hearlier⟩
    refine ⟨r, ⟨earlier, later, hroutes, Option.isSome_of_eq_some hr, fun r' hr' => ?_⟩, hr⟩
    simp [hearlier r' hr']
  · rintro ⟨r, ⟨earlier, later, hroutes, -, hearlier⟩, hr⟩
    exact ⟨earlier, r, later, hroutes, hr, fun r' hr' =>
      Option.not_isSome_iff_eq_none.1 (hearlier r' hr')⟩

/-- The pattern of the route fits the path. -/
def Fits (path : String) (r : Route R) : Prop := (r.match? path).isSome = true

/-- How a router serves a method and a path. -/
structure Serves (router : Router R) (method path : String) : Prop where
  /-- It resolves the path to the first route that fits, with what that route captures. -/
  resolves (found : RouteMatch) : router.resolve? path = some found ↔
    ∃ r captured, First (Fits path) router.routes r ∧ r.form.capture? path = some captured ∧
      found = ⟨r.name, captured⟩
  /-- It routes the request to the first route that fits and accepts the method. -/
  routes (found : RouteMatch) : router.route method path = .ok found ↔
    ∃ r captured, First (fun r => Fits path r ∧ r.accepts method = true) router.routes r ∧
      r.form.capture? path = some captured ∧ found = ⟨r.name, captured⟩
  /-- It refuses the method in the name of the route to which it resolves the path, if no route that
  fits accepts it. -/
  refuses (name method' : String) :
    router.route method path = .error (.methodNotAllowed name method') ↔
      (∀ r ∈ router.routes, Fits path r → r.accepts method = false) ∧ method' = method ∧
        ∃ found, router.resolve? path = some found ∧ name = found.name
  /-- It finds no route exactly where it does not resolve the path. -/
  misses : router.route method path = .error (.notFound path) ↔ router.resolve? path = none
  /-- There is no other way for it to fail. -/
  faults (fault : RouteFault) : router.route method path = .error fault →
    fault = .notFound path ∨ ∃ name, fault = .methodNotAllowed name method

theorem match?_eq_some_iff {r : Route R} {path : String} {found : RouteMatch} :
    r.match? path = some found ↔
      ∃ captured, r.form.capture? path = some captured ∧ found = ⟨r.name, captured⟩ := by
  rw [Route.match?, Option.map_eq_some_iff]
  exact exists_congr fun captured => and_congr_right fun _ => eq_comm

/-- What a route has to offer for a method and a path. -/
def offer? (method path : String) (r : Route R) : Option RouteMatch :=
  if r.accepts method then r.match? path else none

theorem offer?_eq_some_iff {r : Route R} {method path : String} {found : RouteMatch} :
    offer? method path r = some found ↔ r.match? path = some found ∧ r.accepts method = true := by
  cases hr : r.accepts method <;> simp [offer?, hr]

theorem isSome_offer?_iff {r : Route R} {method path : String} :
    (offer? method path r).isSome = true ↔ Fits path r ∧ r.accepts method = true := by
  cases hr : r.accepts method <;> simp [offer?, Fits, hr]

theorem findSome?_offer?_eq_none_iff {routes : List (Route R)} {method path : String} :
    routes.findSome? (offer? method path) = none ↔
      ∀ r ∈ routes, Fits path r → r.accepts method = false := by
  rw [List.findSome?_eq_none_iff]
  refine forall₂_congr fun r _ => ?_
  rw [← Option.not_isSome_iff_eq_none, isSome_offer?_iff, not_and, Bool.not_eq_true]

theorem resolve?_eq_some_iff {router : Router R} {path : String} {found : RouteMatch} :
    router.resolve? path = some found ↔
      ∃ r captured, First (Fits path) router.routes r ∧ r.form.capture? path = some captured ∧
        found = ⟨r.name, captured⟩ := by
  rw [resolve?, findSome?_eq_some_iff_first]
  simp only [match?_eq_some_iff, exists_and_left]
  rfl

theorem route_eq (router : Router R) (method path : String) :
    router.route method path =
      match router.routes.findSome? (offer? method path) with
      | some found => .ok found
      | none =>
        match router.resolve? path with
        | some refused => .error (.methodNotAllowed refused.name method)
        | none => .error (.notFound path) := rfl

theorem route_eq_ok_iff {router : Router R} {method path : String} {found : RouteMatch} :
    router.route method path = .ok found ↔
      ∃ r captured, First (fun r => Fits path r ∧ r.accepts method = true) router.routes r ∧
        r.form.capture? path = some captured ∧ found = ⟨r.name, captured⟩ := by
  have hroute : router.route method path = .ok found ↔
      router.routes.findSome? (offer? method path) = some found := by
    rw [route_eq]
    split
    · rename_i found' hfound
      simp [hfound]
    · rename_i hnone
      rw [hnone]
      split <;> simp
  rw [hroute, findSome?_eq_some_iff_first]
  simp only [isSome_offer?_iff, offer?_eq_some_iff, match?_eq_some_iff]
  constructor
  · rintro ⟨r, hfirst, ⟨captured, hr⟩, -⟩
    exact ⟨r, captured, hfirst, hr⟩
  · rintro ⟨r, captured, hfirst, hr⟩
    obtain ⟨-, -, -, ⟨-, haccepts⟩, -⟩ := id hfirst
    exact ⟨r, hfirst, ⟨captured, hr⟩, haccepts⟩

/-- A path that is resolved to no route is routed to none. -/
theorem findSome?_offer?_of_unresolved {router : Router R} {method path : String}
    (h : router.resolve? path = none) : router.routes.findSome? (offer? method path) = none := by
  refine findSome?_offer?_eq_none_iff.2 fun r hr hfits => ?_
  rw [Fits, List.findSome?_eq_none_iff.1 h r hr] at hfits
  cases hfits

theorem serves (router : Router R) (method path : String) : router.Serves method path where
  resolves _ := resolve?_eq_some_iff
  routes _ := route_eq_ok_iff
  refuses name method' := by
    rw [route_eq, ← findSome?_offer?_eq_none_iff]
    cases router.routes.findSome? (offer? method path) with
    | some found => simp
    | none =>
      cases router.resolve? path with
      | none => simp
      | some refused => simp [and_comm, eq_comm]
  misses := by
    rw [route_eq]
    cases hresolve : router.resolve? path with
    | none => simp [findSome?_offer?_of_unresolved hresolve]
    | some refused => cases router.routes.findSome? (offer? method path) <;> simp
  faults fault h := by
    rw [route_eq] at h
    split at h
    · cases h
    · split at h <;> cases h
      · exact .inr ⟨_, rfl⟩
      · exact .inl rfl

/-- **What a router makes of a request.**  Whatever has been added to it, and whatever of that has
failed, its routes are those of the last additions of each name in the order in which the names have
first come, each of them accepts the methods that it has been added with, up to the case of ASCII
letters, and the router serves every method and every path accordingly. -/
theorem routing_of_additions (R : Regex) (additions : List Addition) (method path : String) :
    Standing additions (ofAdditions R additions).routes ∧
      (∀ a ∈ additions, ∀ r, a.route? R = some r →
        (r.accepts method = true ↔ ∀ m ∈ a.method, Text.sameIgnoringCase m method = true)) ∧
      (ofAdditions R additions).Serves method path :=
  ⟨standing_ofAdditions additions, fun _ _ _ hr => Addition.accepts_iff hr method,
    serves _ method path⟩

end Router

end ScriptHost
