import ScriptHost.Proofs.Text.Split
import ScriptHost.Stream.Head
import Mathlib.Data.List.Forall2
import Mathlib.Data.List.Infix

/-!
# The grammar of request heads

Which texts are heads, and what they say, without a word on how they are parsed.

* `Head.IsLines` — a text in lines: joined by line breaks they are the text, and none of them
  contains one.  A text has exactly one such form (`Head.lines_eq_iff`).
* `Head.WellFormed` — a text is a head: its first line has three words and names a protocol, and
  each other line, unless it is empty, has a colon.
* `Head.Spells` — what such a text says: method, target and the headers in order.

Parsing succeeds on the well-formed texts only (`Head.isOk_parse_iff`), and gives what they spell
(`Head.parse_eq_ok_iff`).
-/

set_option autoImplicit false

namespace ScriptHost

namespace Head

/-! ## Lines -/

/-- What ends a line. -/
def lineBreak : List Char := ['\r', '\n']

/-- The lines of a text: joined by line breaks they are the text, and none contains one. -/
structure IsLines (text : List Char) (ls : List (List Char)) : Prop where
  ne_nil : ls ≠ []
  joined : lineBreak.intercalate ls = text
  unbroken : ∀ l ∈ ls, ¬ lineBreak <:+: l

namespace IsLines

variable {text first : List Char} {others : List (List Char)}

theorem single (h : ¬ lineBreak <:+: text) : IsLines text [text] :=
  ⟨List.cons_ne_nil _ _, List.intercalate_singleton, List.forall_mem_singleton.2 h⟩

theorem joined_cons (h : IsLines text (first :: others)) (hne : others ≠ []) :
    text = first ++ lineBreak ++ lineBreak.intercalate others := by
  rw [← h.joined, List.intercalate_cons_of_ne_nil hne]

/-- A text that begins with a line break has an empty first line. -/
theorem afterBreak {ls : List (List Char)} (h : IsLines text ls) :
    IsLines ('\r' :: '\n' :: text) ([] :: ls) where
  ne_nil := List.cons_ne_nil _ _
  joined := by
    rw [List.intercalate_cons_of_ne_nil h.ne_nil, h.joined]
    rfl
  unbroken := List.forall_mem_cons.2 ⟨by decide, h.unbroken⟩

/-- Any other character belongs to the first line. -/
theorem afterChar (h : IsLines text (first :: others)) {c : Char}
    (hc : ¬ lineBreak <+: c :: text) : IsLines (c :: text) ((c :: first) :: others) := by
  have hjoined : c :: text = lineBreak.intercalate ((c :: first) :: others) := by
    rw [← h.joined]
    cases others <;> rfl
  have hbegins : c :: first <+: c :: text := by
    rw [hjoined]
    cases others with
    | nil => rw [List.intercalate_singleton]
    | cons second others =>
      rw [List.intercalate_cons_cons, List.append_assoc]
      exact List.prefix_append ..
  refine ⟨List.cons_ne_nil _ _, hjoined.symm, List.forall_mem_cons.2 ⟨?_, ?_⟩⟩
  · rw [List.infix_cons_iff, not_or]
    exact ⟨fun hpre => hc (hpre.trans hbegins), h.unbroken first List.mem_cons_self⟩
  · exact fun l hl => h.unbroken l (List.mem_cons_of_mem _ hl)

/-- Only a piece that contains a line break itself reaches beyond one. -/
theorem isInfix_of_break {a x y : List Char} (hne : a ≠ [])
    (h : lineBreak ++ x = a ++ lineBreak ++ y) : lineBreak <:+: a := by
  match a, hne with
  | [_], _ => cases h
  | _ :: _ :: a, _ =>
    cases h
    exact ⟨[], a, rfl⟩

/-- What stands before the first line break, and what behind it. -/
theorem break_unique {a b x y : List Char} (ha : ¬ lineBreak <:+: a) (hb : ¬ lineBreak <:+: b)
    (h : a ++ lineBreak ++ x = b ++ lineBreak ++ y) : a = b ∧ x = y := by
  induction a generalizing b with
  | nil =>
    by_cases hnil : b = []
    · subst hnil
      cases h
      exact ⟨rfl, rfl⟩
    · exact absurd (isInfix_of_break hnil h) hb
  | cons c a ih =>
    cases b with
    | nil => exact absurd (isInfix_of_break (List.cons_ne_nil c a) h.symm) ha
    | cons d b =>
      obtain ⟨rfl, htail⟩ := List.cons.inj h
      obtain ⟨rfl, hxy⟩ := ih (mt List.infix_cons ha) (mt List.infix_cons hb) htail
      exact ⟨rfl, hxy⟩

/-- A text has one form in lines only. -/
theorem unique {ls ls' : List (List Char)} (h : IsLines text ls) (h' : IsLines text ls') :
    ls = ls' := by
  induction ls generalizing text ls' with
  | nil => exact absurd rfl h.ne_nil
  | cons first others ih =>
    obtain ⟨first', others', rfl⟩ := List.exists_cons_of_ne_nil h'.ne_nil
    have hfirst := h.unbroken first List.mem_cons_self
    have hfirst' := h'.unbroken first' List.mem_cons_self
    by_cases hnil : others = [] <;> by_cases hnil' : others' = []
    · subst hnil hnil'
      have hjoined := h.joined.trans h'.joined.symm
      rw [List.intercalate_singleton, List.intercalate_singleton] at hjoined
      rw [hjoined]
    · subst hnil
      have hjoined := h.joined.trans (h'.joined_cons hnil')
      rw [List.intercalate_singleton] at hjoined
      exact absurd ⟨_, _, hjoined.symm⟩ hfirst
    · subst hnil'
      have hjoined := h'.joined.trans (h.joined_cons hnil)
      rw [List.intercalate_singleton] at hjoined
      exact absurd ⟨_, _, hjoined.symm⟩ hfirst'
    · obtain ⟨rfl, hothers⟩ := break_unique hfirst hfirst'
        ((h.joined_cons hnil).symm.trans (h'.joined_cons hnil'))
      have tail {ls : List (List Char)} (hls : IsLines text (first :: ls)) (hne : ls ≠ []) :
          IsLines (lineBreak.intercalate ls) ls :=
        ⟨hne, rfl, fun l hl => hls.unbroken l (List.mem_cons_of_mem _ hl)⟩
      rw [ih (tail h hnil) (hothers ▸ tail h' hnil')]

end IsLines

/-- Cutting goes on behind what has been seen of a line. -/
theorem isLines_lines (cs : List Char) :
    ∃ first others, IsLines cs (first :: others) ∧
      ∀ acc, lines acc cs = (acc.reverse ++ first) :: others := by
  refine lines.induct (fun _ cs => ∃ first others, IsLines cs (first :: others) ∧
      ∀ acc, lines acc cs = (acc.reverse ++ first) :: others) ?_ ?_ ?_ [] cs
  case refine_1 =>
    refine fun _ => ⟨[], [], .single (by decide), fun acc => ?_⟩
    rw [lines, List.append_nil]
  case refine_2 =>
    rintro - rest ⟨first, others, hrest, hlines⟩
    refine ⟨[], first :: others, hrest.afterBreak, fun acc => ?_⟩
    rw [lines, hlines, List.append_nil, List.reverse_nil, List.nil_append]
  case refine_3 =>
    rintro - c rest hc ⟨first, others, hrest, hlines⟩
    refine ⟨c :: first, others, hrest.afterChar ?_, fun acc => ?_⟩
    · rintro ⟨tail, htail⟩
      cases htail
      exact hc _ rfl rfl
    · rw [lines, hlines, List.reverse_cons, List.append_assoc, List.singleton_append]
      exact hc

/-- **Cutting a text at its line breaks** gives its lines. -/
theorem lines_eq_iff {cs : List Char} {ls : List (List Char)} :
    lines [] cs = ls ↔ IsLines cs ls := by
  obtain ⟨first, others, hcs, hlines⟩ := isLines_lines cs
  rw [hlines, List.reverse_nil, List.nil_append]
  constructor
  · rintro rfl
    exact hcs
  · exact hcs.unique

/-! ## What a head says -/

/-- The first line of a head: at least three words, of which the third names the protocol. -/
def Requests (line : List Char) (method target : String) : Prop :=
  ∃ m t version more, Text.words line = m :: t :: version :: more ∧
    "HTTP/".toList <+: version ∧ method = String.ofList m ∧ target = String.ofList t

/-- The line of a header: the first colon stands between its name and its value, and the blanks
around both do not belong to them. -/
def Declares (line : List Char) (header : String × String) : Prop :=
  ∃ name value, line = name ++ ':' :: value ∧ ':' ∉ name ∧
    header = (String.ofList (Text.trimList name), String.ofList (Text.trimList value))

/-- A text says this head: its first line the method and the target, and its other lines, unless
they are empty, the headers in their order. -/
def Spells (text : String) (head : Head) : Prop :=
  ∃ first others method target headers, IsLines text.toList (first :: others) ∧
    Requests first method target ∧ List.Forall₂ Declares (others.filter (· ≠ [])) headers ∧
    head = { new method target with headers }

/-- A text is a head. -/
def WellFormed (text : String) : Prop :=
  ∃ first others, IsLines text.toList (first :: others) ∧
    (∃ method target, Requests first method target) ∧ ∀ line ∈ others, line ≠ [] → ':' ∈ line

theorem parseRequestLine_eq_ok_iff {line : List Char} {head : Head} :
    parseRequestLine line = .ok head ↔
      ∃ method target, Requests line method target ∧ head = new method target := by
  rw [parseRequestLine]
  constructor
  · intro h
    split at h
    · rename_i m t version more hwords
      split at h
      · rename_i hversion
        cases h
        exact ⟨_, _, ⟨m, t, version, more, hwords, List.isPrefixOf_iff_prefix.1 hversion, rfl, rfl⟩,
          rfl⟩
      · cases h
    · cases h
  · rintro ⟨_, _, ⟨m, t, version, more, hwords, hversion, rfl, rfl⟩, rfl⟩
    rw [hwords]
    exact if_pos (List.isPrefixOf_iff_prefix.2 hversion)

theorem parseHeader_eq_ok_iff {line : List Char} {header : String × String} :
    parseHeader line = .ok header ↔ Declares line header := by
  have hcut (name value : List Char) : Text.splitFirst (· = ':') line = some (name, value) ↔
      line = name ++ ':' :: value ∧ ':' ∉ name := by
    rw [Text.splitFirst_eq_some_iff]
    simp only [decide_eq_true_eq, decide_eq_false_iff_not]
    constructor
    · rintro ⟨_, hline, rfl, hname⟩
      exact ⟨hline, fun hmem => hname _ hmem rfl⟩
    · rintro ⟨hline, hname⟩
      exact ⟨_, hline, rfl, fun b hb heq => hname (heq ▸ hb)⟩
  rw [parseHeader]
  constructor
  · intro h
    split at h
    · rename_i name value hsplit
      cases h
      exact ⟨name, value, ((hcut ..).1 hsplit).1, ((hcut ..).1 hsplit).2, rfl⟩
    · cases h
  · rintro ⟨name, value, hline, hname, rfl⟩
    rw [(hcut name value).2 ⟨hline, hname⟩]

/-- A line says a header if and only if it has a colon. -/
theorem exists_declares_iff {line : List Char} : (∃ header, Declares line header) ↔ ':' ∈ line := by
  constructor
  · rintro ⟨-, name, value, rfl, -, -⟩
    exact List.mem_append_right _ List.mem_cons_self
  · intro hmem
    obtain ⟨name, value, rfl, hname⟩ := List.eq_append_cons_of_mem hmem
    exact ⟨_, name, value, rfl, hname, rfl⟩

/-- Lines say headers if and only if each of them has a colon. -/
theorem exists_forall₂_declares_iff {ls : List (List Char)} :
    (∃ headers, List.Forall₂ Declares ls headers) ↔ ∀ line ∈ ls, ':' ∈ line := by
  induction ls with
  | nil => exact ⟨nofun, fun _ => ⟨[], .nil⟩⟩
  | cons line ls ih =>
    rw [List.forall_mem_cons, ← exists_declares_iff, ← ih]
    constructor
    · rintro ⟨-, _ | ⟨hline, hls⟩⟩
      exact ⟨⟨_, hline⟩, ⟨_, hls⟩⟩
    · rintro ⟨⟨header, hline⟩, ⟨headers, hls⟩⟩
      exact ⟨header :: headers, .cons hline hls⟩

/-- Headers are parsed line by line. -/
theorem mapM_parseHeader_eq_ok_iff {ls : List (List Char)} {headers : List (String × String)} :
    ls.mapM parseHeader = .ok headers ↔ List.Forall₂ Declares ls headers := by
  induction ls generalizing headers with
  | nil =>
    rw [List.mapM_nil, List.forall₂_nil_left_iff]
    exact ⟨fun h => (Except.ok.inj h).symm, fun h => congrArg _ h.symm⟩
  | cons line ls ih =>
    rw [List.mapM_cons, Outcome.bind_eq_ok_iff]
    simp only [Outcome.bind_eq_ok_iff, parseHeader_eq_ok_iff, ih]
    constructor
    · rintro ⟨header, hline, headers, hls, heq⟩
      cases heq
      exact .cons hline hls
    · rintro (_ | ⟨hline, hls⟩)
      exact ⟨_, hline, _, hls, rfl⟩

/-- What is parsed of a text in lines. -/
theorem parse_of_isLines {text : String} {first : List Char} {others : List (List Char)}
    (h : IsLines text.toList (first :: others)) :
    parse text = parseRequestLine first >>= fun head =>
      (others.filter (· ≠ [])).mapM parseHeader >>= fun headers => .ok { head with headers } := by
  rw [parse, lines_eq_iff.2 h]
  rfl

/-- **Parsing gives what a text spells.** -/
theorem parse_eq_ok_iff {text : String} {head : Head} :
    parse text = .ok head ↔ Spells text head := by
  constructor
  · intro h
    obtain ⟨first, others, hlines, -⟩ := isLines_lines text.toList
    rw [parse_of_isLines hlines, Outcome.bind_eq_ok_iff] at h
    obtain ⟨start, hfirst, hrest⟩ := h
    obtain ⟨headers, hothers, heq⟩ := Outcome.bind_eq_ok_iff.1 hrest
    obtain ⟨method, target, hrequests, rfl⟩ := parseRequestLine_eq_ok_iff.1 hfirst
    exact ⟨first, others, method, target, headers, hlines, hrequests,
      mapM_parseHeader_eq_ok_iff.1 hothers, (Except.ok.inj heq).symm⟩
  · rintro ⟨first, others, method, target, headers, hlines, hrequests, hheaders, rfl⟩
    rw [parse_of_isLines hlines, Outcome.bind_eq_ok_iff]
    refine ⟨_, parseRequestLine_eq_ok_iff.2 ⟨method, target, hrequests, rfl⟩, ?_⟩
    exact Outcome.bind_eq_ok_iff.2 ⟨_, mapM_parseHeader_eq_ok_iff.2 hheaders, rfl⟩

theorem parseRequestLine_fault {line : List Char} {e : Failure}
    (h : parseRequestLine line = .error e) : e.kind = .illegalState := by
  rw [parseRequestLine] at h
  split at h
  · split at h
    · cases h
    · cases h
      rfl
  · cases h
    rfl

theorem parseHeader_fault {line : List Char} {e : Failure} (h : parseHeader line = .error e) :
    e.kind = .illegalState := by
  rw [parseHeader] at h
  split at h <;> cases h
  rfl

theorem mapM_parseHeader_fault {ls : List (List Char)} {e : Failure}
    (h : ls.mapM parseHeader = .error e) : e.kind = .illegalState := by
  induction ls with
  | nil => cases h
  | cons line ls ih =>
    rw [List.mapM_cons, Outcome.bind_eq_error_iff] at h
    rcases h with hline | ⟨header, -, hrest⟩
    · exact parseHeader_fault hline
    · rcases Outcome.bind_eq_error_iff.1 hrest with hls | ⟨headers, -, hend⟩
      · exact ih hls
      · cases hend

/-- What is wrong with a text that is no head is always of one kind. -/
theorem parse_fault {text : String} {e : Failure} (h : parse text = .error e) :
    e.kind = .illegalState := by
  obtain ⟨first, others, hlines, -⟩ := isLines_lines text.toList
  rw [parse_of_isLines hlines, Outcome.bind_eq_error_iff] at h
  rcases h with hfirst | ⟨start, -, hrest⟩
  · exact parseRequestLine_fault hfirst
  · rcases Outcome.bind_eq_error_iff.1 hrest with hothers | ⟨headers, -, hend⟩
    · exact mapM_parseHeader_fault hothers
    · cases hend

/-- **The texts that say a head are the well-formed ones.** -/
theorem exists_spells_iff {text : String} : (∃ head, Spells text head) ↔ WellFormed text := by
  have hcolons (others : List (List Char)) :
      (∃ headers, List.Forall₂ Declares (others.filter (· ≠ [])) headers) ↔
        ∀ line ∈ others, line ≠ [] → ':' ∈ line := by
    rw [exists_forall₂_declares_iff]
    simp only [List.mem_filter, decide_eq_true_eq, and_imp]
  constructor
  · rintro ⟨-, first, others, method, target, headers, hlines, hrequests, hheaders, -⟩
    exact ⟨first, others, hlines, ⟨method, target, hrequests⟩, (hcolons others).1 ⟨_, hheaders⟩⟩
  · rintro ⟨first, others, hlines, ⟨method, target, hrequests⟩, hothers⟩
    obtain ⟨headers, hheaders⟩ := (hcolons others).2 hothers
    exact ⟨_, first, others, method, target, headers, hlines, hrequests, hheaders, rfl⟩

theorem isOk_parse_iff {text : String} : (parse text).isOk = true ↔ WellFormed text := by
  rw [Outcome.isOk_iff, ← exists_spells_iff]
  exact exists_congr fun _ => parse_eq_ok_iff

end Head

end ScriptHost
