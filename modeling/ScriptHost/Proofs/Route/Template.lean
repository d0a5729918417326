import ScriptHost.Route.Template
import ScriptHost.Proofs.Text.Split
import Mathlib.Data.List.TakeWhile

/-!
# Filling a template

A template is read in one way (`RouteTemplate.Scanned`), and a path may fill it in several.  The
search for a filling is a backtracking one, hole by hole from the left and the longest piece first.

* `RouteTemplate.Fills` — what makes a filling: one piece for each hole, none of them empty or with
  a slash in it, which put into the template give the path.
* `RouteTemplate.Shorter` — one filling falls short of another: where they part, its piece is the
  shorter one.
* `RouteTemplate.fill?_sound` and `RouteTemplate.fill?_complete` — the search finds a filling if
  there is one, and any other falls short of the one it finds.
-/

set_option autoImplicit false

namespace ScriptHost.RouteTemplate

/-! ## Reading a template -/

/-- How a template is read.  A hole begins at the next opening brace and ends at the next closing
one behind it; an opening brace without a closing one is literal. -/
inductive Scanned : List Char → List RoutePart → Prop
  | literal {cs : List Char} : '\x7b' ∉ cs → Scanned cs [.text cs]
  | unclosed {before behind : List Char} : '\x7b' ∉ before → '\x7d' ∉ behind →
      Scanned (before ++ '\x7b' :: behind) [.text (before ++ '\x7b' :: behind)]
  | hole {before inside rest : List Char} {parts : List RoutePart} : '\x7b' ∉ before →
      '\x7d' ∉ inside → Scanned rest parts →
        Scanned (before ++ '\x7b' :: (inside ++ '\x7d' :: rest))
          (.text before :: .hole inside :: parts)

theorem eq_of_splitFirst {brace : Char} {cs before behind : List Char}
    (h : Text.splitFirst (· == brace) cs = some (before, behind)) :
    cs = before ++ brace :: behind ∧ brace ∉ before := by
  obtain ⟨c, rfl, hc, hbefore⟩ := Text.splitFirst_eq_some_iff.1 h
  refine ⟨by rw [eq_of_beq hc], fun hmem => ?_⟩
  simpa using hbefore _ hmem

theorem notMem_of_splitFirst {brace : Char} {cs : List Char}
    (h : Text.splitFirst (· == brace) cs = none) : brace ∉ cs := by
  intro hmem
  simpa using Text.splitFirst_eq_none_iff.1 h _ hmem

theorem scan_literal {cs : List Char} (hopened : '\x7b' ∉ cs) : RoutePart.scan cs = [.text cs] := by
  rw [RoutePart.scan]
  split
  · rfl
  · rename_i hsome
    rw [show Text.splitFirst (· == '\x7b') cs = none from
      Text.splitFirst_of_notMem hopened] at hsome
    cases hsome

/-- Behind an opening brace. -/
theorem scan_opened {before : List Char} (behind : List Char) (hopened : '\x7b' ∉ before) :
    RoutePart.scan (before ++ '\x7b' :: behind) =
      match Text.splitFirst (· == '\x7d') behind with
      | none => [.text (before ++ '\x7b' :: behind)]
      | some (inside, rest) => .text before :: .hole inside :: RoutePart.scan rest := by
  have hsplit : Text.splitFirst (· == '\x7b') (before ++ '\x7b' :: behind) =
      some (before, behind) :=
    Text.splitFirst_append_cons hopened _
  rw [RoutePart.scan]
  split
  · rename_i hnone
    rw [hsplit] at hnone
    cases hnone
  · rename_i hsome
    rw [hsplit] at hsome
    cases hsome
    split <;> rename_i hclosed <;> rw [hclosed]

theorem scan_unclosed {before behind : List Char} (hopened : '\x7b' ∉ before)
    (hclosed : '\x7d' ∉ behind) :
    RoutePart.scan (before ++ '\x7b' :: behind) = [.text (before ++ '\x7b' :: behind)] := by
  rw [scan_opened behind hopened,
    show Text.splitFirst (· == '\x7d') behind = none from Text.splitFirst_of_notMem hclosed]

theorem scan_hole {before inside : List Char} (rest : List Char) (hopened : '\x7b' ∉ before)
    (hclosed : '\x7d' ∉ inside) :
    RoutePart.scan (before ++ '\x7b' :: (inside ++ '\x7d' :: rest)) =
      .text before :: .hole inside :: RoutePart.scan rest := by
  rw [scan_opened _ hopened, show Text.splitFirst (· == '\x7d') (inside ++ '\x7d' :: rest) =
    some (inside, rest) from Text.splitFirst_append_cons hclosed _]

/-- **A template is read in exactly one way**, and the scan reads it so. -/
theorem scanned_iff {cs : List Char} {parts : List RoutePart} :
    Scanned cs parts ↔ RoutePart.scan cs = parts := by
  constructor
  · intro h
    induction h with
    | literal hopened => exact scan_literal hopened
    | unclosed hopened hclosed => exact scan_unclosed hopened hclosed
    | hole hopened hclosed _ ih => rw [scan_hole _ hopened hclosed, ih]
  · rintro rfl
    induction cs using RoutePart.scan.induct with
    | case1 cs hopened =>
      have hfree := notMem_of_splitFirst hopened
      rw [scan_literal hfree]
      exact .literal hfree
    | case2 cs before behind hopened hclosed =>
      obtain ⟨rfl, hbefore⟩ := eq_of_splitFirst hopened
      have hbehind := notMem_of_splitFirst hclosed
      rw [scan_unclosed hbefore hbehind]
      exact .unclosed hbefore hbehind
    | case3 cs before behind hopened inside rest hclosed ih =>
      obtain ⟨rfl, hbefore⟩ := eq_of_splitFirst hopened
      obtain ⟨rfl, hinside⟩ := eq_of_splitFirst hclosed
      rw [scan_hole _ hbefore hinside]
      exact .hole hbefore hinside ih

/-! ## Fillings -/

/-- What comes out when the holes are filled, in order. -/
def substitute : List RoutePart → List (List Char) → List Char
  | [], _ => []
  | .text text :: parts, pieces => text ++ substitute parts pieces
  | .hole _ :: parts, piece :: pieces => piece ++ substitute parts pieces
  | .hole _ :: parts, [] => substitute parts []

/-- The pieces, one for each hole and none of them empty or with a slash in it, give the path. -/
structure Fills (parts : List RoutePart) (pieces : List (List Char)) (path : List Char) : Prop where
  length : pieces.length = (holes parts).length
  free : ∀ piece ∈ pieces, piece ≠ [] ∧ '/' ∉ piece
  path : substitute parts pieces = path

/-- Where the two part, the first has less. -/
def Shorter : List (List Char) → List (List Char) → Prop
  | piece :: pieces, piece' :: pieces' =>
    piece.length < piece'.length ∨ piece = piece' ∧ Shorter pieces pieces'
  | _, _ => False

theorem fills_nil_iff {pieces : List (List Char)} {path : List Char} :
    Fills [] pieces path ↔ pieces = [] ∧ path = [] := by
  constructor
  · intro h
    exact ⟨List.length_eq_zero_iff.1 h.length, h.path.symm⟩
  · rintro ⟨rfl, rfl⟩
    exact ⟨rfl, by simp, rfl⟩

theorem fills_text_iff {text : List Char} {parts : List RoutePart} {pieces : List (List Char)}
    {path : List Char} :
    Fills (.text text :: parts) pieces path ↔
      ∃ rest, path = text ++ rest ∧ Fills parts pieces rest := by
  constructor
  · intro h
    exact ⟨_, h.path.symm, h.length, h.free, rfl⟩
  · rintro ⟨rest, rfl, h⟩
    exact ⟨h.length, h.free, by rw [substitute, h.path]⟩

theorem fills_hole_iff {name : List Char} {parts : List RoutePart} {pieces : List (List Char)}
    {path : List Char} :
    Fills (.hole name :: parts) pieces path ↔
      ∃ piece pieces' rest, pieces = piece :: pieces' ∧ path = piece ++ rest ∧
        (piece ≠ [] ∧ '/' ∉ piece) ∧ Fills parts pieces' rest := by
  constructor
  · intro h
    obtain ⟨piece, pieces', rfl⟩ := List.exists_cons_of_length_eq_add_one h.length
    exact ⟨piece, pieces', _, rfl, h.path.symm, h.free piece List.mem_cons_self,
      Nat.succ.inj h.length, fun p hp => h.free p (List.mem_cons_of_mem _ hp), rfl⟩
  · rintro ⟨piece, pieces', rest, rfl, rfl, hpiece, h⟩
    refine ⟨congrArg Nat.succ h.length, ?_, by rw [substitute, h.path]⟩
    exact List.forall_mem_cons.2 ⟨hpiece, h.free⟩

/-! ## The search -/

theorem behind?_eq_some_iff {text cs rest : List Char} :
    behind? text cs = some rest ↔ cs = text ++ rest := by
  induction text generalizing cs with
  | nil => simp [behind?, eq_comm]
  | cons t text ih =>
    cases cs with
    | nil => simp [behind?]
    | cons c cs =>
      rw [behind?]
      by_cases htc : t = c
      · simp [htc, ih]
      · simp [htc, Ne.symm htc]

theorem slash_notMem_take {cs : List Char} {k : Nat}
    (h : k ≤ (cs.takeWhile (· ≠ '/')).length) : '/' ∉ cs.take k := by
  intro hslash
  obtain ⟨rest, hrest⟩ := List.takeWhile_prefix (p := (· ≠ '/')) (l := cs)
  rw [← hrest, List.take_append_of_le_length h] at hslash
  simpa using List.mem_takeWhile_imp (List.mem_of_mem_take hslash)

theorem length_le_takeWhile {piece : List Char} (rest : List Char) (h : '/' ∉ piece) :
    piece.length ≤ ((piece ++ rest).takeWhile (· ≠ '/')).length := by
  rw [List.takeWhile_append_of_pos, List.length_append]
  · exact Nat.le_add_right ..
  · intro c hc
    simp only [ne_eq, decide_not, Bool.not_eq_true', decide_eq_false_iff_not]
    exact ne_of_mem_of_not_mem hc h

/-- What the search for the longest piece finds. -/
theorem longest_eq_some {α : Type} {follow : List Char → Option α} {cs piece : List Char} {a : α}
    {n : Nat} (h : longest follow cs n = some (piece, a)) :
    ∃ k, 0 < k ∧ k ≤ n ∧ piece = cs.take k ∧ follow (cs.drop k) = some a ∧
      ∀ j, k < j → j ≤ n → follow (cs.drop j) = none := by
  induction n with
  | zero => cases h
  | succ n ih =>
    rw [longest] at h
    split at h
    · rename_i a' hfollow
      cases h
      exact ⟨n + 1, Nat.succ_pos n, Nat.le_refl _, rfl, hfollow, by omega⟩
    · rename_i hnone
      obtain ⟨k, hpos, hle, hpiece, hfollow, hlonger⟩ := ih h
      refine ⟨k, hpos, by omega, hpiece, hfollow, fun j hkj hjn => ?_⟩
      rcases Nat.eq_or_lt_of_le hjn with rfl | hlt
      · exact hnone
      · exact hlonger j hkj (by omega)

/-- The search for the longest piece finds something if there is something. -/
theorem isSome_longest {α : Type} {follow : List Char → Option α} {cs : List Char} {n k : Nat}
    (hpos : 0 < k) (hle : k ≤ n) (h : (follow (cs.drop k)).isSome = true) :
    (longest follow cs n).isSome = true := by
  induction n with
  | zero => omega
  | succ n ih =>
    rw [longest]
    split
    · rfl
    · rename_i hnone
      refine ih (Nat.le_of_lt_succ (Nat.lt_of_le_of_ne hle ?_))
      rintro rfl
      rw [hnone] at h
      cases h

/-- **What is found fills the template**, and names its holes in order. -/
theorem fill?_sound {parts : List RoutePart} {path : List Char}
    {filling : List (List Char × List Char)} (h : fill? parts path = some filling) :
    Fills parts (filling.map (·.2)) path ∧ filling.map (·.1) = holes parts := by
  induction parts generalizing path filling with
  | nil =>
    cases path with
    | nil =>
      cases h
      exact ⟨fills_nil_iff.2 ⟨rfl, rfl⟩, rfl⟩
    | cons => cases h
  | cons part parts ih =>
    cases part with
    | text text =>
      obtain ⟨rest, hrest, hfill⟩ := Option.bind_eq_some_iff.1 h
      obtain ⟨hfills, hnames⟩ := ih hfill
      exact ⟨fills_text_iff.2 ⟨rest, behind?_eq_some_iff.1 hrest, hfills⟩, hnames⟩
    | hole name =>
      obtain ⟨⟨piece, others⟩, hlongest, rfl⟩ := Option.map_eq_some_iff.1 h
      obtain ⟨k, hpos, hle, rfl, hfollow, -⟩ := longest_eq_some hlongest
      obtain ⟨hfills, hnames⟩ := ih hfollow
      refine ⟨fills_hole_iff.2 ⟨path.take k, _, path.drop k, rfl, (List.take_append_drop ..).symm,
        ⟨?_, slash_notMem_take hle⟩, hfills⟩, congrArg _ hnames⟩
      rw [Ne, List.take_eq_nil_iff]
      rintro (hzero | rfl)
      · omega
      · exact absurd hle (Nat.not_le.2 hpos)

/-- **A filling that exists is found**, or one of which it falls short. -/
theorem fill?_complete {parts : List RoutePart} {path : List Char} {pieces : List (List Char)}
    (h : Fills parts pieces path) :
    ∃ filling, fill? parts path = some filling ∧
      (pieces = filling.map (·.2) ∨ Shorter pieces (filling.map (·.2))) := by
  induction parts generalizing path pieces with
  | nil =>
    obtain ⟨rfl, rfl⟩ := fills_nil_iff.1 h
    exact ⟨[], rfl, .inl rfl⟩
  | cons part parts ih =>
    cases part with
    | text text =>
      obtain ⟨rest, rfl, hfills⟩ := fills_text_iff.1 h
      obtain ⟨filling, hfill, hbest⟩ := ih hfills
      refine ⟨filling, ?_, hbest⟩
      rw [fill?, behind?_eq_some_iff.2 rfl]
      exact hfill
    | hole name =>
      obtain ⟨piece, pieces', rest, rfl, rfl, ⟨hsome, hslash⟩, hfills⟩ := fills_hole_iff.1 h
      obtain ⟨filling, hfill, hbest⟩ := ih hfills
      have hle := length_le_takeWhile rest hslash
      have hpos := List.length_pos_iff.2 hsome
      have hfound : (longest (fill? parts) (piece ++ rest)
          ((piece ++ rest).takeWhile (· ≠ '/')).length).isSome = true :=
        isSome_longest hpos hle (by rw [List.drop_left, hfill]; rfl)
      obtain ⟨⟨found, others⟩, hlongest⟩ := Option.isSome_iff_exists.1 hfound
      obtain ⟨k, -, hk, rfl, hfollow, hlonger⟩ := longest_eq_some hlongest
      refine ⟨_, by rw [fill?, hlongest]; rfl, ?_⟩
      -- What follows the piece is filled, so the search has not stopped short of the piece's end.
      have hnot : ¬k < piece.length := by
        intro hlt
        have hnone := hlonger piece.length hlt hle
        rw [List.drop_left, hfill] at hnone
        cases hnone
      rcases Nat.eq_or_lt_of_le (Nat.le_of_not_lt hnot) with rfl | hlt
      · rw [List.drop_left, hfill] at hfollow
        cases hfollow
        rw [List.take_left]
        rcases hbest with hsame | hshorter
        · exact .inl (congrArg _ hsame)
        · exact .inr (.inr ⟨rfl, hshorter⟩)
      · refine .inr (.inl ?_)
        rw [List.length_take]
        have := (List.takeWhile_prefix (p := (· ≠ '/')) (l := piece ++ rest)).length_le
        omega

end ScriptHost.RouteTemplate
