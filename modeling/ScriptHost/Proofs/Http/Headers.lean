import ScriptHost.Http.Wire
import ScriptHost.Proofs.Record

/-!
# The header fields of a request

Headers are kept by their exact names and sent by their names in lower case.  A client lays the
headers of a call over the configured ones by their exact names, so a call that spells a name in
another way does not hide the configured header.  Both are then sent under one name, and the one
whose spelling comes later counts, whichever of the two it is.

* `HttpRequest.get?_fields` — of the headers of one name the last one is sent.
* `HttpClient.intended` — the value that a call should have under a name.
* `HttpClient.field_iff` — a field is as intended unless the configured header outranks that of the
  call.
-/

set_option autoImplicit false

namespace ScriptHost

theorem Text.sameIgnoringCase_iff {a b : String} :
    Text.sameIgnoringCase a b = true ↔ Text.lower a = Text.lower b := beq_iff_eq

/-! ## Headers whose names do not depend on case -/

namespace HttpRequest

/-- Whether a header has a name, whatever its case. -/
def isNamed (name : String) (header : String × String) : Bool :=
  Text.sameIgnoringCase header.1 name

/-- No two headers have names that differ in case only. -/
def Unambiguous (headers : Record String) : Prop :=
  ∀ f ∈ headers, ∀ g ∈ headers, Text.sameIgnoringCase f.1 g.1 = true → f = g

/-- The value of the first header of a name, whatever its case. -/
def valueOf? (headers : Record String) (name : String) : Option String :=
  (headers.find? (isNamed name)).map (·.2)

variable {headers : Record String} {name : String} {f : String × String}

theorem isNamed_iff : isNamed name f = true ↔ Text.lower f.1 = Text.lower name :=
  Text.sameIgnoringCase_iff

theorem Unambiguous.eq_of_isNamed (h : Unambiguous headers) {g : String × String} (hf : f ∈ headers)
    (hg : g ∈ headers) (hfname : isNamed name f = true) (hgname : isNamed name g = true) : f = g :=
  h f hf g hg
    (Text.sameIgnoringCase_iff.2 ((isNamed_iff.1 hfname).trans (isNamed_iff.1 hgname).symm))

theorem valueOf?_eq_some (h : Unambiguous headers) (hf : f ∈ headers)
    (hname : isNamed name f = true) : valueOf? headers name = some f.2 := by
  rw [valueOf?]
  rcases hfind : headers.find? (isNamed name) with _ | g
  · exact absurd hname (List.find?_eq_none.1 hfind f hf)
  · rw [Option.map_some,
      h.eq_of_isNamed (List.mem_of_find?_eq_some hfind) hf (List.find?_some hfind) hname]

theorem valueOf?_eq_none :
    valueOf? headers name = none ↔ ∀ f ∈ headers, isNamed name f = false := by
  simp [valueOf?]

/-! ## What is sent -/

theorem fieldOf_ok {value : String} {field : String × String} (h : fieldOf name value = .ok field) :
    field = (Text.lower name, value) := by
  rw [fieldOf] at h
  split at h
  · cases h
  · split at h <;> cases h
    rfl

theorem get?_fieldsOf {list : List (String × String)} {sent fields : Record String}
    (h : fieldsOf sent list = .ok fields) (name : String) :
    Record.get? fields (Text.lower name) =
      ((list.filter (isNamed name)).getLast?.map (·.2)).or
        (Record.get? sent (Text.lower name)) := by
  induction list generalizing sent with
  | nil =>
    cases h
    rfl
  | cons header rest ih =>
    obtain ⟨n, v⟩ := header
    rw [fieldsOf] at h
    split at h
    · rename_i lowered value hfield
      obtain ⟨hlowered, rfl⟩ := Prod.mk.inj (fieldOf_ok hfield)
      rw [ih h, Record.get?_insert, hlowered]
      by_cases hname : isNamed name (n, value) = true
      · rw [List.filter_cons_of_pos hname, if_pos (isNamed_iff.1 hname).symm, List.getLast?_cons]
        cases (rest.filter (isNamed name)).getLast? <;> rfl
      · rw [List.filter_cons_of_neg hname, if_neg fun heq => hname (isNamed_iff.2 heq.symm)]
    · cases h

/-- **Of the headers of one name, whatever its case, the last one is sent.** -/
theorem get?_fields {r : HttpRequest} {fields : Record String} (h : r.fields = .ok fields)
    (name : String) :
    Record.get? fields (Text.lower name) =
      (r.headers.filter (isNamed name)).getLast?.map (·.2) := by
  rw [get?_fieldsOf h, Record.get?, List.lookup_nil, Option.or_none]

theorem isOk_fieldsOf (list : List (String × String)) (sent : Record String) :
    (fieldsOf sent list).isOk = list.all fun (name, value) => (fieldOf name value).isOk := by
  induction list generalizing sent with
  | nil => rfl
  | cons header rest ih =>
    obtain ⟨n, v⟩ := header
    rw [fieldsOf, List.all_cons]
    dsimp only
    cases fieldOf n v with
    | error e => rfl
    | ok field => exact ih _

theorem get?_fields_of_last {r : HttpRequest} {fields : Record String} (h : r.fields = .ok fields)
    (hascending : r.headers.Ascending) (hf : f ∈ r.headers) (hname : isNamed name f = true)
    (hlast : ∀ g ∈ r.headers, isNamed name g = true → g.1 ≤ f.1) :
    Record.get? fields (Text.lower name) = some f.2 := by
  rw [get?_fields h, Record.getLast?_filter hascending hf hname hlast, Option.map_some]

theorem get?_fields_of_none {r : HttpRequest} {fields : Record String} (h : r.fields = .ok fields)
    (hnone : ∀ f ∈ r.headers, isNamed name f = false) :
    Record.get? fields (Text.lower name) = none := by
  have hfilter : r.headers.filter (isNamed name) = [] :=
    List.filter_eq_nil_iff.2 fun f hf => Bool.eq_false_iff.1 (hnone f hf)
  rw [get?_fields h, hfilter]
  rfl

end HttpRequest

/-! ## The headers of a call -/

namespace HttpClient

open HttpRequest

/-- Whether a body is written as JSON. -/
def isJson : Value → Bool
  | .null | .str _ | .bytes _ => false
  | _ => true

/-- The value that a call should send under a name: its own one, or else the configured one.  A body
that is written as JSON has its type if neither of them names another. -/
def intended (configured call : Record String) (body : Value) (name : String) : Option String :=
  (valueOf? call name).or ((valueOf? configured name).or
    (if isJson body && Text.sameIgnoringCase "content-type" name then some "application/json"
      else none))

/-- The configured header of a name has a spelling that comes behind the one of the call, and
another value. -/
def Outranked (configured call : Record String) (name : String) : Prop :=
  ∃ f ∈ configured, ∃ g ∈ call, isNamed name f = true ∧ isNamed name g = true ∧ g.1 < f.1 ∧
    f.2 ≠ g.2

theorem headers_withContentType (body : Value) (r : HttpRequest) :
    (withContentType body r).headers =
      if isJson body && (valueOf? r.headers "content-type").isNone then
        Record.insert "content-type" "application/json" r.headers
      else r.headers := by
  have hvalue : r.header? "content-type" = valueOf? r.headers "content-type" := rfl
  cases body <;> simp only [withContentType, isJson, Bool.false_and, Bool.true_and, hvalue] <;>
    first | rfl | (cases valueOf? r.headers "content-type" <;> rfl)

variable {c : HttpClient} {clock : Clock} {method url : String} {headers : Record String}
  {body : Value} {d : Deadline} {r : HttpRequest}

theorem headers_compose (h : c.compose clock method url headers body d = .ok r) :
    r.headers =
      if isJson body && (valueOf? (c.headersFor headers) "content-type").isNone then
        Record.insert "content-type" "application/json" (c.headersFor headers)
      else c.headersFor headers := by
  simp only [compose, bind, Except.bind] at h
  split at h
  · cases h
  · split at h
    · cases h
    · split at h
      · cases h
      · cases h
        exact headers_withContentType body _

theorem mem_headersFor (hc : c.config.headers.Ascending) (hh : headers.Ascending)
    {f : String × String} : f ∈ c.headersFor headers ↔
      f ∈ headers ∨ f ∈ c.config.headers ∧ f.1 ∉ Record.names headers :=
  Record.mem_foldl_insert hh hc

theorem ascending_headersFor (hc : c.config.headers.Ascending) :
    (c.headersFor headers).Ascending := hc.foldl_insert headers

/-- The headers of the whole request are the merged ones, with the type of a body that is written as
JSON unless one of them names a type. -/
theorem mem_headers_compose (h : c.compose clock method url headers body d = .ok r)
    (hc : c.config.headers.Ascending) :
    r.headers.Ascending ∧ ∀ f, f ∈ r.headers ↔ f ∈ c.headersFor headers ∨
      f = ("content-type", "application/json") ∧ isJson body = true ∧
        ∀ g ∈ c.headersFor headers, isNamed "content-type" g = false := by
  have hall : (c.headersFor headers).Ascending := ascending_headersFor hc
  have hr := headers_compose h
  split at hr <;> rename_i hadded <;>
    simp only [Bool.and_eq_true, Option.isNone_iff_eq_none, valueOf?_eq_none] at hadded <;> rw [hr]
  · refine ⟨hall.insert .., fun f => ?_⟩
    rw [Record.mem_insert hall, and_iff_left hadded, or_comm]
    refine or_congr_left (and_iff_left_of_imp fun hf heq => ?_)
    exact Bool.eq_false_iff.1 (hadded.2 f hf) (isNamed_iff.2 (congrArg Text.lower heq))
  · exact ⟨hall, fun f => (or_iff_left fun hf => hadded hf.2).symm⟩

section Fields

variable {fields : Record String} {name : String} {f g : String × String}
  (h : c.compose clock method url headers body d = .ok r) (hfields : r.fields = .ok fields)
  (hc : c.config.headers.Ascending)

include h hfields hc

/-- The last of the merged headers of a name is sent. -/
theorem get?_fields_of_merged (hf : f ∈ c.headersFor headers) (hname : isNamed name f = true)
    (hlast : ∀ g ∈ c.headersFor headers, isNamed name g = true → g.1 ≤ f.1) :
    Record.get? fields (Text.lower name) = some f.2 := by
  obtain ⟨hascending, hmem⟩ := mem_headers_compose h hc
  refine get?_fields_of_last hfields hascending ((hmem f).2 (.inl hf)) hname fun g hg hgname => ?_
  rcases (hmem g).1 hg with hg | ⟨rfl, -, hnone⟩
  · exact hlast g hg hgname
  · -- a type is added only where no other header has its name
    refine absurd (isNamed_iff.2 ?_) (Bool.eq_false_iff.1 (hnone f hf))
    exact (isNamed_iff.1 hname).trans (isNamed_iff.1 hgname).symm

/-- Where there is no header of a name, all that is sent under it is the type of a body that is
written as JSON. -/
theorem get?_fields_of_neither (hnone : ∀ f ∈ c.headersFor headers, isNamed name f = false) :
    Record.get? fields (Text.lower name) =
      if isJson body && Text.sameIgnoringCase "content-type" name then some "application/json"
      else none := by
  obtain ⟨hascending, hmem⟩ := mem_headers_compose h hc
  split <;> rename_i hjson <;> rw [Bool.and_eq_true] at hjson
  · have hnone' (g) (hg : g ∈ c.headersFor headers) : isNamed "content-type" g = false := by
      rw [isNamed, Text.sameIgnoringCase, Text.sameIgnoringCase_iff.1 hjson.2]
      exact hnone g hg
    refine get?_fields_of_last hfields hascending ((hmem _).2 (.inr ⟨rfl, hjson.1, hnone'⟩)) hjson.2
      fun g hg hgname => ?_
    rcases (hmem g).1 hg with hg | ⟨rfl, -⟩
    · exact absurd hgname (Bool.eq_false_iff.1 (hnone g hg))
    · exact le_refl _
  · refine get?_fields_of_none hfields fun f hf => ?_
    rcases (hmem f).1 hf with hf | ⟨rfl, hwritten, -⟩
    · exact hnone f hf
    · exact Bool.eq_false_iff.2 fun hname => hjson ⟨hwritten, hname⟩

variable (hh : headers.Ascending)

include hh

/-- The configured header wins where its spelling comes behind the one of the call. -/
theorem get?_fields_of_behind (huc : Unambiguous c.config.headers) (huh : Unambiguous headers)
    (hf : f ∈ c.config.headers) (hfname : isNamed name f = true) (hg : g ∈ headers)
    (hgname : isNamed name g = true) (hlt : g.1 < f.1) :
    Record.get? fields (Text.lower name) = some f.2 := by
  have hnot : f.1 ∉ Record.names headers := fun hmem => by
    obtain ⟨g', hg', heq⟩ := List.mem_map.1 hmem
    have hg'name : isNamed name g' = true := isNamed_iff.2 (heq ▸ isNamed_iff.1 hfname)
    rw [huh.eq_of_isNamed hg' hg hg'name hgname] at heq
    exact hlt.ne heq
  refine get?_fields_of_merged h hfields hc ((mem_headersFor hc hh).2 (.inr ⟨hf, hnot⟩)) hfname
    fun g' hg' hname => ?_
  rcases (mem_headersFor hc hh).1 hg' with hg' | ⟨hg', -⟩
  · rw [huh.eq_of_isNamed hg' hg hname hgname]
    exact hlt.le
  · rw [huc.eq_of_isNamed hg' hf hname hfname]

/-- The header of the call wins everywhere else. -/
theorem get?_fields_of_call (huh : Unambiguous headers) (hg : g ∈ headers)
    (hgname : isNamed name g = true)
    (hlast : ∀ f ∈ c.config.headers, isNamed name f = true → f.1 ≤ g.1) :
    Record.get? fields (Text.lower name) = some g.2 := by
  refine get?_fields_of_merged h hfields hc ((mem_headersFor hc hh).2 (.inl hg)) hgname
    fun g' hg' hname => ?_
  rcases (mem_headersFor hc hh).1 hg' with hg' | ⟨hg', -⟩
  · rw [huh.eq_of_isNamed hg' hg hname hgname]
  · exact hlast g' hg' hname

/-- A configured header is sent if the call has none of its name. -/
theorem get?_fields_of_configured (huc : Unambiguous c.config.headers) (hf : f ∈ c.config.headers)
    (hfname : isNamed name f = true) (hnone : ∀ g ∈ headers, isNamed name g = false) :
    Record.get? fields (Text.lower name) = some f.2 := by
  have hnot : f.1 ∉ Record.names headers := fun hmem => by
    obtain ⟨g, hg, heq⟩ := List.mem_map.1 hmem
    exact Bool.eq_false_iff.1 (hnone g hg) (isNamed_iff.2 (heq ▸ isNamed_iff.1 hfname))
  refine get?_fields_of_merged h hfields hc ((mem_headersFor hc hh).2 (.inr ⟨hf, hnot⟩)) hfname
    fun g hg hname => ?_
  rcases (mem_headersFor hc hh).1 hg with hg | ⟨hg, -⟩
  · exact absurd hname (Bool.eq_false_iff.1 (hnone g hg))
  · rw [huc.eq_of_isNamed hg hf hname hfname]

/-- Where the call has a header of a name, its value is sent unless the configured header outranks
it. -/
theorem get?_fields_eq_call_iff (huc : Unambiguous c.config.headers) (huh : Unambiguous headers)
    (hg : g ∈ headers) (hgname : isNamed name g = true) :
    Record.get? fields (Text.lower name) = some g.2 ↔
      ¬ Outranked c.config.headers headers name := by
  by_cases hbehind : ∃ f ∈ c.config.headers, isNamed name f = true ∧ g.1 < f.1
  · obtain ⟨f, hf, hfname, hlt⟩ := hbehind
    rw [get?_fields_of_behind h hfields hc hh huc huh hf hfname hg hgname hlt, Option.some_inj]
    constructor
    · rintro heq ⟨f', hf', g', hg', hf'name, hg'name, -, hne⟩
      rw [huc.eq_of_isNamed hf' hf hf'name hfname, huh.eq_of_isNamed hg' hg hg'name hgname] at hne
      exact hne heq
    · exact fun hnot => by_contra fun hne => hnot ⟨f, hf, g, hg, hfname, hgname, hlt, hne⟩
  · refine iff_of_true (get?_fields_of_call h hfields hc hh huh hg hgname fun f hf hname =>
      not_lt.1 fun hlt => hbehind ⟨f, hf, hname, hlt⟩) ?_
    rintro ⟨f, hf, g', hg', hfname, hg'name, hlt, -⟩
    rw [huh.eq_of_isNamed hg' hg hg'name hgname] at hlt
    exact hbehind ⟨f, hf, hfname, hlt⟩

/-- Where the call has no header of a name, the configured one is sent, or else the type of the
body. -/
theorem get?_fields_of_no_call (huc : Unambiguous c.config.headers)
    (hnone : ∀ g ∈ headers, isNamed name g = false) :
    Record.get? fields (Text.lower name) = intended c.config.headers headers body name := by
  rw [intended, valueOf?_eq_none.2 hnone, Option.none_or]
  by_cases hconfigured : ∃ f ∈ c.config.headers, isNamed name f = true
  · obtain ⟨f, hf, hfname⟩ := hconfigured
    rw [valueOf?_eq_some huc hf hfname, Option.some_or]
    exact get?_fields_of_configured h hfields hc hh huc hf hfname hnone
  · have hnone' (f) (hf : f ∈ c.config.headers) : isNamed name f = false :=
      Bool.eq_false_iff.2 fun hname => hconfigured ⟨f, hf, hname⟩
    rw [valueOf?_eq_none.2 hnone', Option.none_or]
    refine get?_fields_of_neither h hfields hc fun f hf => ?_
    rcases (mem_headersFor hc hh).1 hf with hf | ⟨hf, -⟩
    · exact hnone f hf
    · exact hnone' f hf

theorem field_eq_intended_iff (huc : Unambiguous c.config.headers) (huh : Unambiguous headers)
    (name : String) :
    Record.get? fields (Text.lower name) = intended c.config.headers headers body name ↔
      ¬ Outranked c.config.headers headers name := by
  by_cases hcall : ∃ g ∈ headers, isNamed name g = true
  · obtain ⟨g, hg, hgname⟩ := hcall
    rw [intended, valueOf?_eq_some huh hg hgname, Option.some_or]
    exact get?_fields_eq_call_iff h hfields hc hh huc huh hg hgname
  · have hnone (g) (hg : g ∈ headers) : isNamed name g = false :=
      Bool.eq_false_iff.2 fun hname => hcall ⟨g, hg, hname⟩
    refine iff_of_true (get?_fields_of_no_call h hfields hc hh huc hnone) ?_
    exact fun ⟨_, _, g, hg, _, hname, _⟩ => hcall ⟨g, hg, hname⟩

end Fields

/-- **A field is as intended, unless the configured header outranks that of the call.**  Among the
configured headers no two names differ in case only, and neither do they among those of the call.
If all headers can be sent, then they are sent, and under every name the value of the call, or else
the configured one, or else the type of a body that is written as JSON; but if the configured header
of the name has a spelling that comes behind the one of the call, and another value, then this is
not so. -/
theorem field_iff (h : c.compose clock method url headers body d = .ok r)
    (hc : c.config.headers.Ascending) (hh : headers.Ascending)
    (huc : Unambiguous c.config.headers) (huh : Unambiguous headers) :
    (r.fields.isOk = r.headers.all fun (name, value) => (fieldOf name value).isOk) ∧
      ∀ fields, r.fields = .ok fields → ∀ name,
        Record.get? fields (Text.lower name) = intended c.config.headers headers body name ↔
          ¬ Outranked c.config.headers headers name :=
  ⟨isOk_fieldsOf r.headers [], fun _ hfields name =>
    field_eq_intended_iff h hfields hc hh huc huh name⟩

/-- The call spells one of the configured names in small letters, and its value is sent. -/
theorem field_iff_accept :
    let c : HttpClient :=
      { config := { headers := [("Accept", "text/html"), ("X-App", "configured")] }, base := none }
    let headers : Record String := [("accept", "text/plain"), ("x-trace", "1")]
    ∃ r fields, c.compose {} "post" "http://svc/items" headers (.arr []) .never = .ok r ∧
      c.config.headers.Ascending ∧ headers.Ascending ∧
      Unambiguous c.config.headers ∧ Unambiguous headers ∧ r.fields = .ok fields ∧
      Record.get? fields "accept" = some "text/plain" ∧
      Record.get? fields "x-app" = some "configured" ∧
      Record.get? fields "content-type" = some "application/json" := by
  intro c headers
  let r : HttpRequest :=
    { method := .post, url := "http://svc/items"
      headers := [("Accept", "text/html"), ("X-App", "configured"), ("accept", "text/plain"),
        ("content-type", "application/json"), ("x-trace", "1")]
      body := some [91, 93], timeout := some 30000 }
  have hr : c.compose {} "post" "http://svc/items" headers (.arr []) .never = .ok r := by
    decide +kernel
  have haccept : Text.lower "Accept" = "accept" := by decide +kernel
  have haccept' : Text.lower "accept" = "accept" := by decide +kernel
  have happ : Text.lower "X-App" = "x-app" := by decide +kernel
  have happ' : Text.lower "x-app" = "x-app" := by decide +kernel
  have htrace : Text.lower "x-trace" = "x-trace" := by decide +kernel
  have htype : Text.lower "content-type" = "content-type" := by decide +kernel
  have hspelling : ¬ "accept" < "Accept" := by decide +kernel
  have hc : c.config.headers.Ascending := by decide +kernel
  have hh : headers.Ascending := by decide +kernel
  have huc : Unambiguous c.config.headers := by
    simp [c, Unambiguous, Text.sameIgnoringCase, haccept, happ]
  have huh : Unambiguous headers := by
    simp [headers, Unambiguous, Text.sameIgnoringCase, haccept', htrace]
  have h := field_iff hr hc hh huc huh
  have hok : r.fields.isOk = true := h.1.trans (by decide +kernel)
  rcases hfields : r.fields with e | fields
  · rw [hfields] at hok
    cases hok
  · have field (name value : String) (hlower : Text.lower name = name)
        (hnot : ¬ Outranked c.config.headers headers name)
        (hvalue : intended c.config.headers headers (.arr []) name = some value) :
        Record.get? fields name = some value := by
      have hfield := ((h.2 fields hfields name).2 hnot).trans hvalue
      rwa [hlower] at hfield
    refine ⟨r, fields, hr, hc, hh, huc, huh, hfields, field "accept" "text/plain" haccept' ?_ ?_,
      field "x-app" "configured" happ' ?_ ?_,
      field "content-type" "application/json" htype ?_ ?_⟩ <;>
    simp [c, headers, Outranked, intended, valueOf?, isNamed, isJson, Text.sameIgnoringCase,
      haccept, haccept', happ, happ', htrace, htype, hspelling, -String.lt_iff_ltb]

/-- **A configured header is sent in place of the one of the call**, which spells its name with
capitals. -/
theorem configured_outranks :
    let c : HttpClient := { config := { headers := [("x-app", "configured")] }, base := none }
    let headers : Record String := [("X-App", "call")]
    ∃ r fields, c.compose {} "get" "http://svc/" headers .null .never = .ok r ∧
      c.config.headers.Ascending ∧ headers.Ascending ∧
      Unambiguous c.config.headers ∧ Unambiguous headers ∧ r.fields = .ok fields ∧
      intended c.config.headers headers .null "x-app" = some "call" ∧
      Record.get? fields "x-app" = some "configured" := by
  intro c headers
  let r : HttpRequest :=
    { url := "http://svc/", headers := [("X-App", "call"), ("x-app", "configured")]
      timeout := some 30000 }
  have happ : Text.lower "X-App" = "x-app" := by decide +kernel
  have happ' : Text.lower "x-app" = "x-app" := by decide +kernel
  have hok : r.fields.isOk = true := (isOk_fieldsOf r.headers []).trans (by decide +kernel)
  rcases hfields : r.fields with e | fields
  · rw [hfields] at hok
    cases hok
  · have hfield := get?_fields hfields "x-app"
    rw [happ'] at hfield
    refine ⟨r, fields, by decide +kernel, by decide +kernel, by decide +kernel, ?_, ?_, hfields, ?_,
      hfield.trans ?_⟩ <;>
    simp [c, r, headers, Unambiguous, intended, valueOf?, isNamed, Text.sameIgnoringCase,
      happ, happ']

end HttpClient

end ScriptHost
