import ScriptHost.Route.Router
import ScriptHost.Proofs.Text.Split
import Mathlib.Data.List.Nodup
import Mathlib.Data.List.TakeWhile

/-!
# Templates as regular expressions

A template writes out to a regular expression.  What stands in a hole is written as it is, so there
may be more in it than a name: the name of the group that comes out ends at the first `>`
(`RouteTemplate.groupName`), and what is behind that belongs to what the group matches
(`RouteTemplate.demand`).

* `Regex.Documented` — what is relied on in a library of regular expressions, and
  `Expression.regex_documented`: the expressions here can stand for one.
* `RouteTemplate.compile?_spliced` — the expression that comes out, part by part, if the names of
  the groups are proper and what is behind them is ordinary text.
* `RouteTemplate.compile?_misnamed` — nothing comes out if the name of a group is not proper.
* `RouteTemplate.find?_expressionOf` — if the holes are nothing but names, the preferred match is
  the filling that the template's own search finds.
-/

set_option autoImplicit false

namespace ScriptHost

/-! ## Reading -/

namespace Expression

variable {isName : List Char → Bool} {fuel : Nat} {c : Char} {cs rest inside : List Char}
  {names : List String}

@[simp] theorem Reader.bind_apply {α β : Type} (x : Reader α) (f : α → Reader β)
    (s : List Char × List String) : (x >>= f) s = (x s).bind fun (a, s') => f a s' := by
  change StateT.bind x f s = _
  rw [StateT.bind]
  cases x s <;> rfl

@[simp] theorem Reader.map_apply {α β : Type} (f : α → β) (x : Reader α)
    (s : List Char × List String) : (f <$> x) s = (x s).map fun (a, s') => (f a, s') := by
  change StateT.map f x s = _
  rw [StateT.map]
  cases x s <;> rfl

@[simp] theorem Reader.pure_apply {α : Type} (a : α) (s : List Char × List String) :
    (pure a : Reader α) s = some (a, s) := rfl

@[simp] theorem failure_apply {α : Type} (s : List Char × List String) :
    (failure : Reader α) s = none := rfl

@[simp] theorem get_apply (s : List Char × List String) : (get : Reader _) s = some (s, s) := rfl

@[simp] theorem set_apply (s s' : List Char × List String) :
    (set s' : Reader _) s = some (PUnit.unit, s') := rfl

@[simp] theorem peek_apply (s : List Char × List String) : peek s = some (s.1.head?, s) := rfl

@[simp] theorem advance_apply (s : List Char × List String) :
    advance s = some ((), s.1.tail, s.2) := rfl

@[simp] theorem next_cons : next (c :: cs, names) = some (c, cs, names) := rfl

@[simp] theorem expect_cons : expect c (c :: cs, names) = some ((), cs, names) := by
  rw [expect, Reader.bind_apply, next_cons]
  exact congrFun (if_pos rfl) _

/-- The character neither marks a repetition nor ends a sequence. -/
abbrev IsPlain (c : Char) : Prop := c ∉ ['*', '+', '?', '\x7b', '|', ')']

/-- What is written here neither repeats nor ends what is written before it. -/
def StartsPlain (cs : List Char) : Prop := ∀ c, cs.head? = some c → IsPlain c

theorem startsPlain_cons (hc : IsPlain c) : StartsPlain (c :: cs) := by
  rintro _ ⟨⟩
  exact hc

theorem readRepeats_plain (e : Expression) (h : StartsPlain cs) :
    readRepeats fuel e (cs, names) = some (e, cs, names) := by
  cases fuel with
  | zero => rfl
  | succ fuel =>
    cases cs with
    | nil => rfl
    | cons c cs =>
      have hplain := h c rfl
      simp only [IsPlain, List.mem_cons, List.not_mem_nil, or_false, not_or] at hplain
      rw [readRepeats]
      simp [hplain]

/-- An item of a sequence that nothing repeats. -/
theorem readSequence_item {item : Expression} {names' : List String} (hc : IsPlain c)
    (hitem : readItem isName fuel (c :: cs, names) = some (item, rest, names'))
    (hrest : StartsPlain rest) :
    readSequence isName (fuel + 1) (c :: cs, names) =
      (readSequence isName fuel (rest, names')).map fun (e, s) => (.seq item e, s) := by
  simp only [IsPlain, List.mem_cons, List.not_mem_nil, or_false, not_or] at hc
  rw [readSequence]
  simp [hc, hitem, readRepeats_plain item hrest]

theorem readSequence_of_no_item (hc : IsPlain c)
    (hitem : readItem isName fuel (c :: cs, names) = none) :
    readSequence isName (fuel + 1) (c :: cs, names) = none := by
  simp only [IsPlain, List.mem_cons, List.not_mem_nil, or_false, not_or] at hc
  rw [readSequence]
  simp [hc, hitem]

/-- The characters that are quoted stand for themselves behind a backslash. -/
theorem escaped?_of_isSpecial (h : isSpecial c = true) :
    namedSet? c = none ∧ escaped? c = some c := by
  have hall : "\\.+*?()|[]\x7b\x7d^$#&-~".toList.all (fun c =>
      namedSet? c = none ∧ escaped? c = some c) = true := by decide +kernel
  exact of_decide_eq_true (List.all_eq_true.1 hall c (List.elem_iff.1 h))

theorem readItem_quoted (h : isSpecial c = true) :
    readItem isName (fuel + 1) ('\\' :: c :: rest, names) = some (.one (· = c), rest, names) := by
  obtain ⟨hset, hescaped⟩ := escaped?_of_isSpecial h
  rw [readItem]
  simp [hset, hescaped]

theorem readItem_ordinary (h : isSpecial c = false) :
    readItem isName (fuel + 1) (c :: rest, names) = some (.one (· = c), rest, names) := by
  rw [readItem]
  simp only [Reader.bind_apply, next_cons, Option.bind_some]
  split <;> first | rfl | (exact absurd h (by decide))

theorem isPlain_of_isSpecial (h : isSpecial c = false) : IsPlain c := by
  have hall : ['*', '+', '?', '\x7b', '|', ')'].all isSpecial = true := by decide
  intro hmem
  rw [List.all_eq_true.1 hall c hmem] at h
  cases h

theorem quote_cons :
    quote (c :: cs) = (if isSpecial c then ['\\', c] else [c]) ++ quote cs := List.flatMap_cons

theorem startsPlain_quote (hrest : StartsPlain rest) : StartsPlain (quote cs ++ rest) := by
  cases cs with
  | nil => exact hrest
  | cons c cs =>
    rw [quote_cons]
    cases hspecial : isSpecial c with
    | true => exact startsPlain_cons (by decide)
    | false => exact startsPlain_cons (isPlain_of_isSpecial hspecial)

/-- Literal text, character by character, and what follows it. -/
def literally (cs : List Char) (e : Expression) : Expression :=
  cs.foldr (fun c e => .seq (.one (· = c)) e) e

/-- Literal text in a sequence. -/
theorem readSequence_quote (hrest : StartsPlain rest) :
    readSequence isName (fuel + 1 + cs.length) (quote cs ++ rest, names) =
      (readSequence isName (fuel + 1) (rest, names)).map fun (e, s) => (literally cs e, s) := by
  induction cs with
  | nil => exact Option.map_id'.symm
  | cons c cs ih =>
    have hone : readSequence isName (fuel + 1 + cs.length + 1) (quote (c :: cs) ++ rest, names) =
        (readSequence isName (fuel + 1 + cs.length) (quote cs ++ rest, names)).map fun (e, s) =>
          (.seq (.one (· = c)) e, s) := by
      rw [Nat.add_right_comm fuel 1, quote_cons]
      cases hspecial : isSpecial c with
      | true =>
        exact readSequence_item (by decide) (readItem_quoted hspecial) (startsPlain_quote hrest)
      | false =>
        exact readSequence_item (isPlain_of_isSpecial hspecial) (readItem_ordinary hspecial)
          (startsPlain_quote hrest)
    rw [List.length_cons, ← Nat.add_assoc, hone, ih, Option.map_map]
    rfl

theorem length_le_quote (cs : List Char) : cs.length ≤ (quote cs).length := by
  induction cs with
  | nil => exact Nat.zero_le _
  | cons c cs ih =>
    rw [quote_cons, List.length_append]
    split <;> simp only [List.length_cons, List.length_nil] <;> omega

/-- What a hole matches: a piece of a path without a slash in it. -/
def segment : Expression := .seq (.several (.one (· ≠ '/')) false) .empty

theorem readSet_slash :
    readSet (fuel + 2) (fun _ => false) ('/' :: ']' :: rest, names) =
      some (fun c => decide (c = '/'), rest, names) := by
  simp [readSet, readSet.readRange, readSetChar]

theorem readItem_noSlash :
    readItem isName (fuel + 3) ('[' :: '^' :: '/' :: ']' :: rest, names) =
      some (.one (· ≠ '/'), rest, names) := by
  simp [readItem, readSet.readSetFirst, readSet_slash]

theorem readSequence_segment :
    readSequence isName (fuel + 4) ("[^/]+)".toList ++ rest, names) =
      some (segment, ')' :: rest, names) := by
  have hrepeats (e : Expression) : readRepeats (fuel + 3) e ('+' :: ')' :: rest, names) =
      some (.several e false, ')' :: rest, names) := rfl
  rw [readSequence]
  simp [readItem_noSlash, hrepeats, readSequence, segment]

/-- A segment of a path, behind text that stands for itself. -/
theorem readAlternatives_segment :
    readAlternatives isName (fuel + 5 + cs.length) (quote cs ++ ("[^/]+)".toList ++ rest), names) =
      some (literally cs segment, ')' :: rest, names) := by
  have hplain : StartsPlain ("[^/]+)".toList ++ rest) := startsPlain_cons (by decide)
  have hsequence : readSequence isName (fuel + 3 + 1 + cs.length)
      (quote cs ++ ("[^/]+)".toList ++ rest), names) =
        some (literally cs segment, ')' :: rest, names) :=
    (readSequence_quote hplain).trans (congrArg _ readSequence_segment)
  rw [show fuel + 5 + cs.length = fuel + 3 + 1 + cs.length + 1 by omega, readAlternatives,
    Reader.bind_apply, hsequence]
  simp

/-- The name of a group reaches to the first `>`. -/
theorem readName_gt {name : List Char} (h : '>' ∉ name) (rest : List Char) (names : List String) :
    readName isName (name ++ '>' :: rest, names) =
      if isName name = true ∧ String.ofList name ∉ names then
        some (String.ofList name, rest, String.ofList name :: names)
      else none := by
  have hsplit : Text.splitFirst (fun c => decide (c = '>')) (name ++ '>' :: rest) =
      some (name, rest) := Text.splitFirst_append_cons h _
  rw [readName, Reader.bind_apply]
  by_cases hproper : isName name = true ∧ String.ofList name ∉ names
  · simp [hsplit, guard, hproper]
  · simp [hsplit, guard, hproper]

/-- A group that has no name, or one that there is, is none. -/
theorem readItem_of_misnamed {name : List Char} (hgt : '>' ∉ name)
    (h : ¬(isName name = true ∧ String.ofList name ∉ names)) :
    readItem isName fuel ("(?P<".toList ++ name ++ '>' :: rest, names) = none := by
  cases fuel with
  | zero => rfl
  | succ fuel =>
    rw [readItem]
    simp [readName_gt hgt, h]

theorem readItem_group {name : List Char} (fuel : Nat) (cs rest : List Char) (hgt : '>' ∉ name)
    (hname : isName name = true) (hnew : String.ofList name ∉ names) :
    readItem isName (fuel + 6 + cs.length)
        ("(?P<".toList ++ name ++ '>' :: (quote cs ++ ("[^/]+)".toList ++ rest)), names) =
      some (.group (String.ofList name) (literally cs segment), rest,
        String.ofList name :: names) := by
  have hsegment : readAlternatives isName (fuel + 5 + cs.length)
      (quote cs ++ ("[^/]+)".toList ++ rest), String.ofList name :: names) = _ :=
    readAlternatives_segment
  rw [show fuel + 6 + cs.length = fuel + 5 + cs.length + 1 by omega, readItem]
  simp at hsegment
  simp [readName_gt hgt, hname, hnew, hsegment]

/-! ## Whole expressions -/

theorem read?_eq_some {e : Expression}
    (h : readSequence isName (4 * cs.length + 3) (cs, []) = some (e, [], names)) :
    read? isName cs = some e := by
  have hread : (readAlternatives isName (4 * cs.length + 4)).run (cs, []) =
      some (e, [], names) := by
    rw [StateT.run, readAlternatives, Reader.bind_apply, h]
    rfl
  rw [read?, hread]
  rfl

theorem read?_eq_none (h : readSequence isName (4 * cs.length + 3) (cs, []) = none) :
    read? isName cs = none := by
  have hread : (readAlternatives isName (4 * cs.length + 4)).run (cs, []) = none := by
    rw [StateT.run, readAlternatives, Reader.bind_apply, h]
    rfl
  rw [read?, hread]
  rfl

end Expression

/-! ## What libraries of regular expressions agree on -/

open Expression

/-- A piece of an expression: text that stands for itself, or a named group that matches such a text
and a segment of a path behind it. -/
inductive Regex.Piece where
  | text (cs : List Char)
  | group (name cs : List Char)

namespace Regex.Piece

/-- How a piece is written. -/
def write : Piece → List Char
  | text cs => quote cs
  | group name cs => "(?P<".toList ++ name ++ '>' :: (quote cs ++ "[^/]+)".toList)

/-- The names of the groups. -/
def names : List Piece → List (List Char)
  | [] => []
  | text _ :: pieces => names pieces
  | group name _ :: pieces => name :: names pieces

/-- What the pieces mean, with an expression behind them. -/
def meaning : List Piece → Expression → Expression
  | [], e => e
  | text cs :: pieces, e => literally cs (meaning pieces e)
  | group name cs :: pieces, e =>
    .seq (.group (String.ofList name) (literally cs segment)) (meaning pieces e)

end Regex.Piece

/-- The groups of an expression may have these names. -/
structure RouteTemplate.ProperNames (names : List (List Char)) : Prop where
  valid : ∀ name ∈ names, isHoleName name = true
  distinct : names.Nodup

open RouteTemplate Regex

/-- What is documented of a library, its limit of size left aside. -/
structure Regex.Documented (R : Regex) : Prop where
  /-- Quoted text and groups with names of their own, between the marks of the start and the end,
  are an expression, and it captures what they mean. -/
  reads : ∀ pieces, ProperNames (Piece.names pieces) →
    ∃ e, R.compile? ('^' :: (pieces.flatMap Piece.write ++ ['$'])) = some e ∧
      ∀ text, R.captures? e text =
        RoutePattern.dialect.captures? (.seq .start (Piece.meaning pieces (.seq .stop .empty))) text
  /-- Whatever comes behind it, a group whose name is none or has been given is no expression. -/
  refuses : ∀ pieces name behind, ProperNames (Piece.names pieces) → '>' ∉ name →
    ¬ProperNames (Piece.names pieces ++ [name]) →
      R.compile? ('^' :: (pieces.flatMap Piece.write ++
        ("(?P<".toList ++ name ++ '>' :: behind))) = none

namespace RouteTemplate

theorem gt_notMem_of_isHoleName {inside : List Char} (h : isHoleName inside = true) :
    '>' ∉ inside := by
  cases inside with
  | nil => exact List.not_mem_nil
  | cons c rest =>
    simp only [isHoleName, Bool.and_eq_true, List.all_eq_true] at h
    intro hmem
    rcases List.mem_cons.1 hmem with rfl | hmem
    · exact absurd h.1 (by decide +kernel)
    · exact absurd (h.2 _ hmem) (by decide +kernel)

variable {fuel : Nat} {parts : List RoutePart} {pieces : List Piece}
  {seen names : List (List Char)} {name : List Char}

theorem ProperNames.left (h : ProperNames (seen ++ names)) : ProperNames seen :=
  ⟨fun name hname => h.valid name (List.mem_append_left _ hname),
    (List.nodup_append.1 h.distinct).1⟩

theorem properNames_concat_iff :
    ProperNames (seen ++ [name]) ↔ ProperNames seen ∧ isHoleName name = true ∧ name ∉ seen := by
  constructor
  · intro h
    have hdistinct := h.distinct
    rw [← List.concat_eq_append, List.nodup_concat] at hdistinct
    exact ⟨h.left, h.valid name List.mem_concat_self, hdistinct.1⟩
  · rintro ⟨hseen, hname, hnew⟩
    refine ⟨?_, ?_⟩
    · exact List.forall_mem_append.2 ⟨hseen.valid, List.forall_mem_singleton.2 hname⟩
    · rw [← List.concat_eq_append, List.nodup_concat]
      exact ⟨hnew, hseen.distinct⟩

theorem ProperNames.gt_notMem (h : ProperNames names) : ∀ name ∈ names, '>' ∉ name :=
  fun name hname => gt_notMem_of_isHoleName (h.valid name hname)

/-- The names of the groups that a reader has read, the latest first. -/
def groupsOf (seen : List (List Char)) : List String := (seen.map String.ofList).reverse

theorem groupsOf_concat (seen : List (List Char)) (name : List Char) :
    groupsOf (seen ++ [name]) = String.ofList name :: groupsOf seen := by simp [groupsOf]

theorem mem_groupsOf_iff : String.ofList name ∈ groupsOf seen ↔ name ∈ seen := by
  rw [groupsOf, List.mem_reverse, List.mem_map_of_injective fun _ _ => String.ofList_injective]

end RouteTemplate

/-! ### The library of the expressions here -/

namespace Expression

variable {fuel : Nat} {pieces : List Piece} {seen : List (List Char)} {name rest : List Char}

theorem startsPlain_write (pieces : List Piece) (h : StartsPlain rest) :
    StartsPlain (pieces.flatMap Piece.write ++ rest) := by
  induction pieces with
  | nil => exact h
  | cons piece pieces ih =>
    rw [List.flatMap_cons, List.append_assoc]
    cases piece with
    | text cs => exact startsPlain_quote ih
    | group name cs => exact startsPlain_cons (by decide)

theorem length_write_group (name cs : List Char) :
    cs.length + 7 ≤ (Piece.group name cs).write.length := by
  have := length_le_quote cs
  simp only [Piece.write, List.length_append, List.length_cons, String.reduceToList,
    List.length_nil]
  omega

/-- Reading pieces, and what is written behind them. -/
theorem readSequence_write (hnames : ProperNames (seen ++ Piece.names pieces))
    (hrest : StartsPlain rest) (hfuel : (pieces.flatMap Piece.write).length ≤ fuel) :
    ∃ left, fuel ≤ left + (pieces.flatMap Piece.write).length ∧
      readSequence isHoleName (fuel + 1) (pieces.flatMap Piece.write ++ rest, groupsOf seen) =
        (readSequence isHoleName (left + 1) (rest, groupsOf (seen ++ Piece.names pieces))).map
          fun (e, s) => (Piece.meaning pieces e, s) := by
  -- a piece takes no more fuel than it has characters, so that what is left will do for the others
  induction pieces generalizing fuel seen with
  | nil =>
    refine ⟨fuel, Nat.le_refl _, ?_⟩
    rw [Piece.names, List.append_nil]
    exact Option.map_id'.symm
  | cons piece pieces ih =>
    rw [List.flatMap_cons, List.length_append] at hfuel ⊢
    rw [List.append_assoc]
    have hplain := startsPlain_write pieces hrest
    cases piece with
    | text cs =>
      have hle := length_le_quote cs
      obtain ⟨fuel, rfl⟩ : ∃ k, fuel = k + cs.length := ⟨fuel - cs.length, by
        simp only [Piece.write] at hfuel; omega⟩
      simp only [Piece.write] at hfuel ⊢
      have hfuel' : (pieces.flatMap Piece.write).length ≤ fuel := by omega
      obtain ⟨left, hleft, hread⟩ := ih hnames hfuel'
      refine ⟨left, by omega, ?_⟩
      rw [Nat.add_right_comm, readSequence_quote hplain, hread, Option.map_map]
      rfl
    | group name cs =>
      have hlength := length_write_group name cs
      rw [Piece.names, List.append_cons] at hnames ⊢
      obtain ⟨-, hname, hnew⟩ := properNames_concat_iff.1 hnames.left
      obtain ⟨fuel, rfl⟩ : ∃ k, fuel = k + 6 + cs.length := ⟨fuel - 6 - cs.length, by omega⟩
      have hfuel' : (pieces.flatMap Piece.write).length ≤ fuel + 5 + cs.length := by omega
      obtain ⟨left, hleft, hread⟩ := ih hnames hfuel'
      refine ⟨left, by omega, ?_⟩
      have hitem := readItem_group fuel cs (pieces.flatMap Piece.write ++ rest)
        (gt_notMem_of_isHoleName hname) hname (mem_groupsOf_iff.not.2 hnew)
      rw [← groupsOf_concat] at hitem
      have hwrite : (Piece.group name cs).write ++ (pieces.flatMap Piece.write ++ rest) =
          "(?P<".toList ++ name ++
            '>' :: (quote cs ++ ("[^/]+)".toList ++ (pieces.flatMap Piece.write ++ rest))) := by
        simp [Piece.write]
      rw [hwrite]
      refine (readSequence_item (by decide) hitem hplain).trans ?_
      rw [show fuel + 6 + cs.length = fuel + 5 + cs.length + 1 by omega, hread, Option.map_map]
      rfl

/-- Behind the mark of the start. -/
theorem readSequence_start (h : StartsPlain rest) :
    readSequence isHoleName (4 * ('^' :: rest).length + 3) ('^' :: rest, []) =
      (readSequence isHoleName (4 * rest.length + 6) (rest, groupsOf [])).map
        fun (e, s) => (.seq .start e, s) :=
  readSequence_item (by decide) rfl h

/-- **The expressions here agree** with what is documented of a library of expressions. -/
theorem regex_documented : Regex.Documented RoutePattern.dialect where
  reads pieces hnames := by
    have hseen : ProperNames ([] ++ Piece.names pieces) := hnames
    have hend : StartsPlain ['$'] := startsPlain_cons (by decide)
    have hfuel : (pieces.flatMap Piece.write).length ≤
        4 * (pieces.flatMap Piece.write ++ ['$']).length + 5 := by
      rw [List.length_append]
      omega
    obtain ⟨left, hleft, hread⟩ := readSequence_write hseen hend hfuel
    obtain ⟨k, rfl⟩ : ∃ k, left = k + 1 := ⟨left - 1, by
      rw [List.length_append] at hleft
      omega⟩
    have hstart := (readSequence_start (startsPlain_write pieces hend)).trans
      (congrArg (Option.map _) hread)
    exact ⟨_, read?_eq_some hstart, fun text => rfl⟩
  refuses pieces name behind hnames hgt hmisnamed := by
    have hseen : ProperNames ([] ++ Piece.names pieces) := hnames
    have hgroup : StartsPlain ("(?P<".toList ++ name ++ '>' :: behind) :=
      startsPlain_cons (by decide)
    have hfuel : (pieces.flatMap Piece.write).length ≤
        4 * (pieces.flatMap Piece.write ++
          ("(?P<".toList ++ name ++ '>' :: behind)).length + 5 := by
      rw [List.length_append]
      omega
    obtain ⟨left, -, hread⟩ := readSequence_write hseen hgroup hfuel
    have hnone : readSequence isHoleName (left + 1)
        ("(?P<".toList ++ name ++ '>' :: behind, groupsOf (Piece.names pieces)) = none := by
      refine readSequence_of_no_item (by decide) (readItem_of_misnamed hgt ?_)
      rw [mem_groupsOf_iff]
      exact fun hgood => hmisnamed (properNames_concat_iff.2 ⟨hnames, hgood⟩)
    rw [List.nil_append, hnone] at hread
    have hstart := (readSequence_start (startsPlain_write pieces hgroup)).trans
      (congrArg (Option.map _) hread)
    exact read?_eq_none hstart

end Expression

/-! ## Templates

What stands in a hole is put between `(?P<` and `>[^/]+)` as it is. -/

namespace RouteTemplate

variable {R : Regex} {parts : List RoutePart} {names : List (List Char)} {inside : List Char}

/-- The name of the group that a hole writes. -/
def groupName (inside : List Char) : List Char := inside.takeWhile (· ≠ '>')

/-- What stands in the group before the expression for a segment: if there is a `>` in the hole,
what comes behind the first one, and the one that closes the name of a group. -/
def demand (inside : List Char) : List Char := (inside.dropWhile (· ≠ '>') ++ ['>']).tail

theorem splice (inside rest : List Char) :
    inside ++ '>' :: rest = groupName inside ++ '>' :: (demand inside ++ rest) := by
  induction inside with
  | nil => rfl
  | cons c inside ih =>
    by_cases hc : c = '>'
    · simp [groupName, demand, hc]
    · rw [List.cons_append, ih]
      simp [groupName, demand, hc]

theorem gt_notMem_groupName (inside : List Char) : '>' ∉ groupName inside := by
  intro hmem
  simpa using List.mem_takeWhile_imp hmem

theorem groupName_eq_self (h : '>' ∉ inside) : groupName inside = inside :=
  List.takeWhile_eq_self_iff.2 fun _ hc => decide_eq_true (ne_of_mem_of_not_mem hc h)

theorem map_groupName (h : ∀ name ∈ names, '>' ∉ name) : names.map groupName = names :=
  (List.map_congr_left fun name hname => groupName_eq_self (h name hname)).trans (List.map_id names)

theorem demand_eq_nil (h : '>' ∉ inside) : demand inside = [] := by
  have hall : inside.dropWhile (· ≠ '>') = [] := List.dropWhile_eq_nil_iff.2 fun _ hc =>
    decide_eq_true (ne_of_mem_of_not_mem hc h)
  rw [demand, hall]
  rfl

/-- The characters all stand for themselves. -/
def Ordinary (cs : List Char) : Prop := ∀ c ∈ cs, isSpecial c = false

instance (cs : List Char) : Decidable (Ordinary cs) :=
  List.decidableBAll (fun c => isSpecial c = false) cs

theorem ordinary_demand (h : '>' ∉ inside) : Ordinary (demand inside) := by
  rw [demand_eq_nil h]
  exact fun _ hc => absurd hc List.not_mem_nil

theorem quote_of_ordinary {cs : List Char} (h : Ordinary cs) : quote cs = cs := by
  induction cs with
  | nil => rfl
  | cons c cs ih =>
    obtain ⟨hc, hcs⟩ := List.forall_mem_cons.1 h
    rw [quote_cons, hc, ih hcs]
    rfl

/-- What a template writes, behind the mark of the start. -/
def written : List RoutePart → List Char
  | [] => ['$']
  | .text cs :: parts => quote cs ++ written parts
  | .hole inside :: parts => "(?P<".toList ++ inside ++ ">[^/]+)".toList ++ written parts

theorem source_eq (parts : List RoutePart) : RoutePattern.source parts = '^' :: written parts := by
  rw [RoutePattern.source, List.cons_append]
  refine congrArg _ ?_
  induction parts with
  | nil => rfl
  | cons part parts ih =>
    rw [List.flatMap_cons, List.append_assoc, ih]
    cases part <;> rfl

theorem written_hole (inside : List Char) (parts : List RoutePart) :
    written (.hole inside :: parts) = "(?P<".toList ++ groupName inside ++
      '>' :: (demand inside ++ ("[^/]+)".toList ++ written parts)) := by
  have hsplice := splice inside ("[^/]+)".toList ++ written parts)
  rw [written, List.append_assoc, List.append_assoc, List.append_assoc, ← hsplice]
  rfl

/-- The pieces that a template writes, if what its holes demand is ordinary text. -/
def pieces : List RoutePart → List Piece
  | [] => []
  | .text cs :: parts => .text cs :: pieces parts
  | .hole inside :: parts => .group (groupName inside) (demand inside) :: pieces parts

theorem names_pieces (parts : List RoutePart) :
    Piece.names (pieces parts) = (holes parts).map groupName := by
  induction parts with
  | nil => rfl
  | cons part parts ih =>
    cases part with
    | text cs => exact ih
    | hole inside => exact congrArg _ ih

theorem written_append (h : ∀ inside ∈ holes parts, Ordinary (demand inside))
    (more : List RoutePart) :
    written (parts ++ more) = (pieces parts).flatMap Piece.write ++ written more := by
  induction parts with
  | nil => rfl
  | cons part parts ih =>
    cases part with
    | text cs =>
      rw [List.cons_append, written, ih h, pieces, List.flatMap_cons, List.append_assoc]
      rfl
    | hole inside =>
      obtain ⟨hinside, hothers⟩ := List.forall_mem_cons.1 h
      rw [List.cons_append, written_hole, ih hothers, pieces, List.flatMap_cons, Piece.write,
        quote_of_ordinary hinside]
      simp

/-- The expression that a template writes, behind the mark of the start. -/
def spliced : List RoutePart → Expression
  | [] => .seq .stop .empty
  | .text cs :: parts => literally cs (spliced parts)
  | .hole inside :: parts =>
    .seq (.group (String.ofList (groupName inside)) (literally (demand inside) segment))
      (spliced parts)

theorem meaning_pieces (parts : List RoutePart) :
    Piece.meaning (pieces parts) (.seq .stop .empty) = spliced parts := by
  induction parts with
  | nil => rfl
  | cons part parts ih => cases part <;> simp only [pieces, Piece.meaning, spliced, ih]

/-- **What a template writes is an expression**, if the names of its groups are proper and what they
demand is ordinary text. -/
theorem compile?_spliced (hR : R.Documented) (hnames : ProperNames ((holes parts).map groupName))
    (hdemands : ∀ inside ∈ holes parts, Ordinary (demand inside)) :
    ∃ e, R.compile? (RoutePattern.source parts) = some e ∧ ∀ text,
      R.captures? e text = RoutePattern.dialect.captures? (.seq .start (spliced parts)) text := by
  rw [← names_pieces] at hnames
  have hwritten := written_append hdemands []
  rw [List.append_nil] at hwritten
  rw [source_eq, hwritten, ← meaning_pieces]
  exact hR.reads (pieces parts) hnames

theorem exists_of_holes_eq {earlier later : List (List Char)}
    (h : holes parts = earlier ++ inside :: later) :
    ∃ before behind, parts = before ++ .hole inside :: behind ∧ holes before = earlier := by
  induction parts generalizing earlier with
  | nil => cases earlier <;> cases h
  | cons part parts ih =>
    cases part with
    | text cs =>
      obtain ⟨before, behind, rfl, rfl⟩ := ih h
      exact ⟨.text cs :: before, behind, rfl, rfl⟩
    | hole hole =>
      cases earlier with
      | nil =>
        obtain ⟨rfl, -⟩ := List.cons.inj h
        exact ⟨[], parts, rfl, rfl⟩
      | cons _ earlier =>
        obtain ⟨rfl, hothers⟩ := List.cons.inj h
        obtain ⟨before, behind, rfl, rfl⟩ := ih hothers
        exact ⟨.hole hole :: before, behind, rfl, rfl⟩

/-- **What a template writes is no expression**, if a hole has no name, or one that another hole
before it has, and what the holes before it demand is ordinary text. -/
theorem compile?_misnamed (hR : R.Documented) {earlier later : List (List Char)}
    (hholes : holes parts = earlier ++ inside :: later)
    (hearlier : ProperNames (earlier.map groupName))
    (hdemands : ∀ hole ∈ earlier, Ordinary (demand hole))
    (hinside : ¬ProperNames ((earlier ++ [inside]).map groupName)) :
    R.compile? (RoutePattern.source parts) = none := by
  obtain ⟨before, behind, rfl, rfl⟩ := exists_of_holes_eq hholes
  rw [List.map_append] at hinside
  rw [← names_pieces] at hearlier hinside
  rw [source_eq, written_append hdemands, written_hole]
  exact hR.refuses (pieces before) (groupName inside) _ hearlier
    (gt_notMem_groupName inside) hinside

/-! ## Matching -/

/-- The expression that a template writes whose holes are nothing but names. -/
def expressionOf : List RoutePart → Expression
  | [] => .seq .stop .empty
  | .text cs :: parts => literally cs (expressionOf parts)
  | .hole inside :: parts => .seq (.group (String.ofList inside) segment) (expressionOf parts)

theorem spliced_eq_expressionOf (h : ∀ inside ∈ holes parts, '>' ∉ inside) :
    spliced parts = expressionOf parts := by
  induction parts with
  | nil => rfl
  | cons part parts ih =>
    cases part with
    | text cs => rw [spliced, expressionOf, ih h]
    | hole inside =>
      obtain ⟨hinside, hothers⟩ := List.forall_mem_cons.1 h
      rw [spliced, expressionOf, ih hothers, groupName_eq_self hinside, demand_eq_nil hinside]
      rfl

variable {captured : List (String × List Char)}

theorem ends_one_cons (accepts : Char → Bool) (atStart : Bool) (c : Char) (cs : List Char) :
    (Expression.one accepts).ends ⟨atStart, c :: cs, captured⟩ =
      if accepts c then [⟨false, cs, captured⟩] else [] := rfl

/-- Behind literal text the match goes on where the search for a filling does. -/
theorem ends_literally {e : Expression} {cs : List Char} {s : Spot} :
    (literally cs e).ends s =
      match behind? cs s.rest with
      | none => []
      | some rest => e.ends { s with atStart := s.atStart && cs.isEmpty, rest } := by
  induction cs generalizing s with
  | nil => simp [behind?, literally]
  | cons c cs ih =>
    obtain ⟨atStart, rest, captured⟩ := s
    rw [show (literally (c :: cs) e).ends ⟨atStart, rest, captured⟩ =
      ((Expression.one (· = c)).ends ⟨atStart, rest, captured⟩).flatMap
        (literally cs e).ends from rfl]
    cases rest with
    | nil => rfl
    | cons c' rest =>
      rw [ends_one_cons, behind?]
      by_cases heq : c' = c
      · simp [heq, ih]
      · simp [heq, Ne.symm heq]

/-- The places behind the beginnings of a text that `p` accepts, those behind longer ones first. -/
def placesBehind (p : Char → Bool) (cs : List Char) (captured : List (String × List Char)) :
    List Spot :=
  (List.range (cs.takeWhile p).length).reverse.map fun k => ⟨false, cs.drop (k + 1), captured⟩

theorem repeated_one {p : Char → Bool} {n : Nat} {cs : List Char} (hn : cs.length ≤ n) :
    repeated (Expression.one p).ends false n ⟨false, cs, captured⟩ =
      placesBehind p cs captured ++ [⟨false, cs, captured⟩] := by
  induction n generalizing cs with
  | zero =>
    obtain rfl := List.length_eq_zero_iff.1 (Nat.le_zero.1 hn)
    rfl
  | succ n ih =>
    cases cs with
    | nil => rfl
    | cons c cs =>
      rw [repeated, ends_one_cons]
      by_cases hc : p c = true
      · simp [hc, placesBehind, List.range_succ_eq_map, ih (Nat.le_of_succ_le_succ hn)]
      · simp [hc, placesBehind]

theorem ends_segment (s : Spot) :
    segment.ends s = placesBehind (· ≠ '/') s.rest s.captured := by
  obtain ⟨atStart, rest, captured⟩ := s
  have hempty : segment.ends ⟨atStart, rest, captured⟩ =
      repeatedFrom (Expression.one (· ≠ '/')).ends false ⟨atStart, rest, captured⟩ :=
    List.flatMap_singleton' _
  rw [hempty, repeatedFrom]
  cases rest with
  | nil => rfl
  | cons c cs =>
    rw [ends_one_cons]
    by_cases hc : c = '/'
    · simp [hc, placesBehind]
    · simp [hc, placesBehind, List.range_succ_eq_map, repeated_one (Nat.le_refl _)]

/-- The places behind the pieces of a hole, with the pieces captured. -/
theorem ends_group_segment (name : String) (s : Spot) :
    (Expression.group name segment).ends s =
      (List.range (s.rest.takeWhile (· ≠ '/')).length).reverse.map fun k =>
        ⟨false, s.rest.drop (k + 1), (name, s.rest.take (k + 1)) :: s.captured⟩ := by
  rw [Expression.ends, ends_segment, placesBehind, List.map_map]
  refine List.map_congr_left fun k hk => ?_
  have hwithin := (List.takeWhile_prefix (p := (· ≠ '/')) (l := s.rest)).length_le
  have hk : k + 1 ≤ s.rest.length := by
    rw [List.mem_reverse, List.mem_range] at hk
    omega
  simp only [Function.comp_apply, List.length_drop, Nat.sub_sub_self hk]

/-- The search for the longest piece, as a search among the numbers of characters. -/
theorem longest_eq_findSome? {α : Type} (follow : List Char → Option α) (cs : List Char) (n : Nat) :
    longest follow cs n = (List.range n).reverse.findSome? fun k =>
      (follow (cs.drop (k + 1))).map fun a => (cs.take (k + 1), a) := by
  induction n with
  | zero => rfl
  | succ n ih =>
    rw [longest, List.range_succ, List.reverse_append, List.reverse_singleton,
      List.singleton_append, List.findSome?_cons, ih]
    cases follow (cs.drop (n + 1)) <;> rfl

/-- What the groups have captured on the preferred way to the end is what the search finds. -/
theorem captured_expressionOf (parts : List RoutePart) (s : Spot) :
    ((expressionOf parts).ends s).head?.map (·.captured) =
      (fill? parts s.rest).map fun filling =>
        (filling.map fun (name, cs) => (String.ofList name, cs)).reverse ++ s.captured := by
  induction parts generalizing s with
  | nil =>
    obtain ⟨atStart, rest, captured⟩ := s
    cases rest <;> rfl
  | cons part parts ih =>
    cases part with
    | text cs =>
      rw [expressionOf, ends_literally, fill?]
      cases behind? cs s.rest with
      | none => rfl
      | some rest => exact ih _
    | hole inside =>
      rw [expressionOf, Expression.ends, ends_group_segment, List.head?_flatMap, List.findSome?_map,
        List.map_findSome?, fill?, longest_eq_findSome?, List.map_findSome?, List.map_findSome?]
      refine congrArg (List.findSome? · _) (funext fun k => ?_)
      simp only [Function.comp_apply, ih, Option.map_map]
      congr 1
      funext filling
      simp

/-- Only at the start. -/
theorem find?_go_false (e : Expression) (cs : List Char) :
    find?.go (.seq .start e) false cs = none := by
  induction cs with
  | nil => rfl
  | cons c cs ih => exact ih

/-- **The preferred match is the filling that the search finds**, captured in reverse. -/
theorem find?_expressionOf (parts : List RoutePart) (cs : List Char) :
    (Expression.seq .start (expressionOf parts)).find? cs = (fill? parts cs).map fun filling =>
      (filling.map fun (name, cs) => (String.ofList name, cs)).reverse := by
  have hends : (Expression.seq .start (expressionOf parts)).ends ⟨true, cs, []⟩ =
      (expressionOf parts).ends ⟨true, cs, []⟩ := List.append_nil _
  have hcaptured := captured_expressionOf parts ⟨true, cs, []⟩
  simp only [List.append_nil] at hcaptured
  rw [find?, ← hcaptured, ← hends]
  cases cs with
  | nil => rfl
  | cons c cs =>
    rw [find?.go]
    split
    · rename_i heq
      rw [heq]
      rfl
    · rename_i heq
      rw [heq, find?_go_false]
      rfl

end RouteTemplate

end ScriptHost
