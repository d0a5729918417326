import ScriptHost.Proofs.Stream.HeadReading
import ScriptHost.Proofs.Stream.Response

/-!
# How a response is read

A reader cuts the bytes of a response at the first empty line, and what stands before it into lines.
The context puts its lines together without a look at what they are made of.  So a reader gets back
the lines that the context has meant, and its data, if and only if nothing that a handler has put
into a header contains a line break.

* `Framing.decode` — what a reader makes of the bytes.
* `Framing.decode_eq_some_iff` — lines that are joined are read again if and only if each is one.
* `Answer` — what an answer says, and `Answer.decode_bytes_iff`, when it is read.
* `Request.decode_sent_iff` — the law for what a handler sets before it answers.
-/

set_option autoImplicit false

namespace ScriptHost

/-! ## Cutting bytes -/

namespace Framing

/-- The bytes that end a line. -/
def lineBreak : Bytes := [13, 10]

/-- Bytes of one line. -/
def Unbroken (bytes : Bytes) : Prop := ¬ lineBreak <:+: bytes

instance (bytes : Bytes) : Decidable (Unbroken bytes) := inferInstanceAs (Decidable (¬ _))

/-- What stands before the first empty line, and what behind it. -/
def cutHead : Bytes → Option (Bytes × Bytes)
  | 13 :: 10 :: 13 :: 10 :: body => some ([], body)
  | b :: rest => (cutHead rest).map fun (head, body) => (b :: head, body)
  | [] => none

/-- Cuts bytes at each line break. -/
def cutLines : Bytes → List Bytes
  | 13 :: 10 :: rest => [] :: cutLines rest
  | b :: rest => (cutLines rest).modifyHead (b :: ·)
  | [] => [[]]

/-- The lines before the first empty one, and what stands behind that. -/
def decode (bytes : Bytes) : Option (List Bytes × Bytes) :=
  (cutHead bytes).map fun (head, body) => (cutLines head, body)

theorem cutLines_cons {b : UInt8} {rest : Bytes} (h : ¬ lineBreak <+: b :: rest) :
    cutLines (b :: rest) = (cutLines rest).modifyHead (b :: ·) := by
  refine cutLines.eq_2 b rest fun rest' hb hrest => h ?_
  rw [hb, hrest]
  exact List.prefix_append lineBreak rest'

theorem cutHead_cons {b : UInt8} {rest : Bytes} (h : ¬ lineBreak <+: b :: rest) :
    cutHead (b :: rest) = (cutHead rest).map fun (head, body) => (b :: head, body) := by
  refine cutHead.eq_2 b rest fun body hb hrest => h ?_
  rw [hb, hrest]
  exact List.prefix_append lineBreak _

/-- What is cut is lines, and the first of them stands in front. -/
theorem cutLines_spec (bytes : Bytes) :
    ∃ first others, cutLines bytes = first :: others ∧ first <+: bytes ∧
      ∀ l ∈ first :: others, Unbroken l := by
  induction bytes using cutLines.induct with
  | case1 rest ih =>
    obtain ⟨first, others, hcut, -, hunbroken⟩ := ih
    exact ⟨[], first :: others, by rw [cutLines, hcut], List.nil_prefix,
      List.forall_mem_cons.2 ⟨by decide, hunbroken⟩⟩
  | case2 b rest hb ih =>
    obtain ⟨first, others, hcut, hprefix, hunbroken⟩ := ih
    obtain ⟨hfirst, hothers⟩ := List.forall_mem_cons.1 hunbroken
    have hbreak : ¬ lineBreak <+: b :: rest := by
      rintro ⟨tail, htail⟩
      cases htail
      exact hb _ rfl rfl
    have hfront : b :: first <+: b :: rest := (List.prefix_append_right_inj [b]).2 hprefix
    refine ⟨b :: first, others, by rw [cutLines_cons hbreak, hcut, List.modifyHead_cons], hfront,
      List.forall_mem_cons.2 ⟨?_, hothers⟩⟩
    rw [Unbroken, List.infix_cons_iff, not_or]
    exact ⟨fun h => hbreak (h.trans hfront), hfirst⟩
  | case3 => exact ⟨[], [], rfl, List.nil_prefix, List.forall_mem_singleton.2 (by decide)⟩

/-- A line break behind a line is where the line ends. -/
theorem not_startsWith_lineBreak {b : UInt8} {l : Bytes} (h : Unbroken (b :: l)) (rest : Bytes) :
    ¬ lineBreak <+: b :: (l ++ (lineBreak ++ rest)) := by
  rintro ⟨tail, htail⟩
  cases l with
  | nil => cases htail
  | cons c l =>
    cases htail
    exact h ⟨[], l, rfl⟩

theorem Unbroken.tail {b : UInt8} {l : Bytes} (h : Unbroken (b :: l)) : Unbroken l :=
  mt List.infix_cons h

theorem cutLines_of_unbroken {l : Bytes} (h : Unbroken l) : cutLines l = [l] := by
  induction l with
  | nil => rfl
  | cons b l ih =>
    rw [cutLines_cons fun hb => h hb.isInfix, ih h.tail, List.modifyHead_cons]

theorem cutLines_append {l : Bytes} (h : Unbroken l) (rest : Bytes) :
    cutLines (l ++ (lineBreak ++ rest)) = l :: cutLines rest := by
  induction l with
  | nil => rfl
  | cons b l ih =>
    rw [List.cons_append, cutLines_cons (not_startsWith_lineBreak h rest), ih h.tail,
      List.modifyHead_cons]

theorem cutHead_last {l : Bytes} (h : Unbroken l) (body : Bytes) :
    cutHead (l ++ (lineBreak ++ (lineBreak ++ body))) = some (l, body) := by
  induction l with
  | nil => rfl
  | cons b l ih =>
    rw [List.cons_append, cutHead_cons (not_startsWith_lineBreak h _), ih h.tail]
    rfl

theorem cutHead_append {l : Bytes} (h : Unbroken l) {rest : Bytes}
    (hrest : ¬ lineBreak <+: rest) :
    cutHead (l ++ (lineBreak ++ rest)) =
      (cutHead rest).map fun (head, body) => (l ++ (lineBreak ++ head), body) := by
  induction l with
  | nil =>
    -- the line break is not the first half of an empty line
    have hfirst : cutHead (13 :: 10 :: rest) =
        (cutHead (10 :: rest)).map fun (head, body) => (13 :: head, body) := by
      refine cutHead.eq_2 13 _ fun body _ hbody => hrest ?_
      rw [(List.cons.inj hbody).2]
      exact List.prefix_append lineBreak body
    have hsecond : ¬ lineBreak <+: 10 :: rest := by
      rintro ⟨tail, htail⟩
      cases htail
    show cutHead (13 :: 10 :: rest) = _
    rw [hfirst, cutHead_cons hsecond, Option.map_map]
    rfl
  | cons b l ih =>
    rw [List.cons_append, cutHead_cons (not_startsWith_lineBreak h _), ih h.tail, Option.map_map]
    rfl

theorem decode_append {l : Bytes} (h : Unbroken l) {rest : Bytes} (hrest : ¬ lineBreak <+: rest) :
    decode (l ++ (lineBreak ++ rest)) =
      (decode rest).map fun (ls, body) => (l :: ls, body) := by
  rw [decode, decode, cutHead_append h hrest, Option.map_map, Option.map_map]
  rcases cutHead rest with _ | ⟨head, body⟩
  · rfl
  · exact congrArg (fun ls => some (ls, body)) (cutLines_append h head)

/-- The lines of a head, each with its end, and an empty one. -/
def join (ls : List Bytes) : Bytes := ls.flatMap (· ++ lineBreak) ++ lineBreak

theorem join_cons_append (l : Bytes) (ls : List Bytes) (body : Bytes) :
    join (l :: ls) ++ body = l ++ (lineBreak ++ (join ls ++ body)) := by
  simp [join]

theorem decode_join {ls : List Bytes} (hne : ls ≠ []) (hls : ∀ l ∈ ls, l ≠ [] ∧ Unbroken l)
    (body : Bytes) : decode (join ls ++ body) = some (ls, body) := by
  induction ls with
  | nil => exact absurd rfl hne
  | cons l ls ih =>
    obtain ⟨⟨-, hl⟩, hrest⟩ := List.forall_mem_cons.1 hls
    rw [join_cons_append]
    cases ls with
    | nil =>
      rw [decode, join, List.flatMap_nil, List.nil_append, cutHead_last hl]
      exact congrArg (fun ls => some (ls, body)) (cutLines_of_unbroken hl)
    | cons l' ls =>
      have hbreak : ¬ lineBreak <+: join (l' :: ls) ++ body := by
        obtain ⟨hne', hl'⟩ := hrest l' List.mem_cons_self
        obtain ⟨b, l', rfl⟩ := List.exists_cons_of_ne_nil hne'
        rw [join_cons_append]
        exact not_startsWith_lineBreak hl' _
      rw [decode_append hl hbreak, ih (List.cons_ne_nil l' ls) hrest]
      rfl

/-- **Lines that are joined are read again** if and only if each of them is one line. -/
theorem decode_eq_some_iff {ls : List Bytes} (hne : ls ≠ []) (hls : ∀ l ∈ ls, l ≠ [])
    (body : Bytes) : decode (join ls ++ body) = some (ls, body) ↔ ∀ l ∈ ls, Unbroken l := by
  constructor
  · intro h
    obtain ⟨⟨head, body'⟩, -, heq⟩ := Option.map_eq_some_iff.1 h
    obtain ⟨first, others, hcut, -, hunbroken⟩ := cutLines_spec head
    obtain ⟨rfl, -⟩ := Prod.mk.inj heq
    rwa [hcut]
  · exact fun h => decode_join hne (fun l hl => ⟨hls l hl, h l hl⟩) body

/-! ## Texts in lines -/

/-- A byte of ASCII is the form of its character only. -/
theorem encodeChar_of_mem {c : Char} {b : UInt8} (hb : b ∈ Utf8.encodeChar c)
    (hascii : b.toNat < 0x80) : Utf8.encodeChar c = [b] ∧ c.toNat = b.toNat := by
  have hc : c.toNat < 0x110000 := by
    have hvalid := c.valid
    rw [UInt32.isValidChar, Nat.isValidChar] at hvalid
    show c.val.toNat < _
    omega
  have hbyte (n : Nat) : n.toUInt8.toNat = n % 256 := UInt8.toNat_ofNat'
  rw [Utf8.encodeChar.eq_def] at hb ⊢
  dsimp only at hb ⊢
  split at hb
  · rename_i hlt
    obtain rfl := List.mem_singleton.1 hb
    rw [if_pos hlt, hbyte]
    exact ⟨rfl, by omega⟩
  · -- the bytes of all other forms are above those of ASCII
    exfalso
    split at hb
    · simp only [List.mem_cons, List.not_mem_nil, or_false] at hb
      rcases hb with rfl | rfl <;> rw [hbyte] at hascii <;> omega
    · split at hb
      · simp only [List.mem_cons, List.not_mem_nil, or_false] at hb
        rcases hb with rfl | rfl | rfl <;> rw [hbyte] at hascii <;> omega
      · simp only [List.mem_cons, List.not_mem_nil, or_false] at hb
        rcases hb with rfl | rfl | rfl | rfl <;> rw [hbyte] at hascii <;> omega

theorem encodeChar_ne_nil (c : Char) : Utf8.encodeChar c ≠ [] := by
  rw [Utf8.encodeChar.eq_def]
  dsimp only
  split_ifs <;> exact List.cons_ne_nil _ _

theorem encode_append (s t : String) : Utf8.encode (s ++ t) = Utf8.encode s ++ Utf8.encode t := by
  rw [Utf8.encode, String.toList_append, List.flatMap_append]
  rfl

theorem encode_ne_nil {text : String} (h : text ≠ "") : Utf8.encode text ≠ [] := by
  obtain ⟨c, cs, hcs⟩ := List.exists_cons_of_ne_nil (mt String.toList_eq_nil_iff.1 h)
  rw [Utf8.encode, hcs, List.flatMap_cons]
  exact List.append_ne_nil_of_left_ne_nil (encodeChar_ne_nil c) _

theorem infix_append_iff_of_notMem {α : Type} {a : α} {p xs ys : List α} (ha : a ∉ xs) :
    a :: p <:+: xs ++ ys ↔ a :: p <:+: ys := by
  rw [List.infix_append_iff]
  constructor
  · rintro (h | h | ⟨l₁, l₂, heq, h₁, h₂⟩)
    · exact absurd (h.mem List.mem_cons_self) ha
    · exact h
    · cases l₁ with
      | nil => exact heq ▸ h₂.isInfix
      | cons b l₁ =>
        cases heq
        exact absurd (h₁.mem List.mem_cons_self) ha
  · exact fun h => .inr (.inl h)

/-- What does not contain a separator stands before it or behind it. -/
theorem infix_separated_iff {α : Type} {c : α} {p xs ys : List α} (hne : p ≠ []) (hc : c ∉ p) :
    p <:+: xs ++ c :: ys ↔ p <:+: xs ∨ p <:+: ys := by
  have hfront : ¬ p <+: c :: ys := fun h => by
    rcases List.prefix_cons_iff.1 h with hnil | ⟨t, rfl, -⟩
    · exact hne hnil
    · exact hc List.mem_cons_self
  rw [List.infix_append_iff, List.infix_cons_iff]
  constructor
  · rintro (h | (h | h) | ⟨l₁, l₂, rfl, h₁, h₂⟩)
    · exact .inl h
    · exact absurd h hfront
    · exact .inr h
    · rcases List.prefix_cons_iff.1 h₂ with rfl | ⟨t, rfl, -⟩
      · rw [List.append_nil]
        exact .inl h₁.isInfix
      · exact absurd (List.mem_append_right _ List.mem_cons_self) hc
  · exact fun h => h.imp id fun h => .inl (.inr h)

/-- A text of one line. -/
def OneLine (text : String) : Prop := ¬ Head.lineBreak <:+: text.toList

instance (text : String) : Decidable (OneLine text) := inferInstanceAs (Decidable (¬ _))

/-- The form of a text has a line break where the text has one. -/
theorem unbroken_encode_iff (text : String) : Unbroken (Utf8.encode text) ↔ OneLine text := by
  rw [Unbroken, OneLine, not_iff_not, Utf8.encode]
  have form (c : Char) {b : UInt8} (hb : b ∈ Utf8.encodeChar c) {d : Char} (hd : d.toNat < 0x80)
      (hbd : b.toNat = d.toNat) : c = d :=
    Char.toNat_inj.1 ((encodeChar_of_mem hb (hbd ▸ hd)).2.trans hbd)
  generalize text.toList = cs
  induction cs with
  | nil => decide
  | cons c cs ih =>
    rw [List.flatMap_cons, List.infix_cons_iff]
    by_cases hc : c = '\r'
    · subst hc
      have hnext : [10] <+: cs.flatMap Utf8.encodeChar ↔ ['\n'] <+: cs := by
        cases cs with
        | nil => decide
        | cons d cs =>
          obtain ⟨b, bs, hbs⟩ := List.exists_cons_of_ne_nil (encodeChar_ne_nil d)
          rw [List.flatMap_cons, hbs, List.cons_append, List.cons_prefix_cons,
            List.cons_prefix_cons, and_iff_left List.nil_prefix, and_iff_left List.nil_prefix]
          constructor
          · rintro rfl
            exact (form d (hbs ▸ List.mem_cons_self) (by decide) rfl).symm
          · rintro rfl
            cases hbs
            rfl
      show lineBreak <:+: 13 :: cs.flatMap Utf8.encodeChar ↔ _
      rw [List.infix_cons_iff]
      refine or_congr ?_ ih
      rw [lineBreak, Head.lineBreak, List.cons_prefix_cons, List.cons_prefix_cons, hnext]
      simp
    · have hnot : 13 ∉ Utf8.encodeChar c := fun h => hc (form c h (by decide) rfl)
      refine (infix_append_iff_of_notMem hnot).trans (ih.trans (or_iff_right fun h => ?_).symm)
      exact hc (List.cons_prefix_cons.1 h).1.symm

end Framing

/-! ## Answers -/

open Framing

/-- What an answer says: its status, its fields in order, and its data. -/
structure Answer where
  status : Nat
  fields : List (String × String)
  data : Bytes

namespace Answer

/-- The first line of a response. -/
def statusLine (a : Answer) : String :=
  "HTTP/1.1 " ++ toString a.status ++ " " ++ reasonPhrase a.status

/-- The lines of the head. -/
def lines (a : Answer) : List Bytes :=
  (a.statusLine :: a.fields.map fun (name, value) => name ++ ": " ++ value).map Utf8.encode

/-- The whole response. -/
def bytes (a : Answer) : Bytes := join a.lines ++ a.data

theorem bytes_eq (a : Answer) :
    a.bytes = Utf8.encode (a.statusLine ++ "\r\n" ++ String.join (a.fields.map
      fun (name, value) => name ++ ": " ++ value ++ "\r\n") ++ "\r\n") ++ a.data := by
  have hfields (fields : List (String × String)) : Utf8.encode (String.join (fields.map
      fun (name, value) => name ++ ": " ++ value ++ "\r\n")) =
      ((fields.map fun (name, value) => name ++ ": " ++ value).map Utf8.encode).flatMap
        (· ++ lineBreak) := by
    induction fields with
    | nil => rfl
    | cons field fields ih =>
      rw [List.map_cons, String.join_cons, encode_append, ih, encode_append]
      rfl
  rw [encode_append, encode_append, encode_append, hfields, bytes, join, lines, List.map_cons,
    List.flatMap_cons]
  rfl

theorem oneLine_statusLine (a : Answer) : OneLine a.statusLine := by
  have hdigits : '\r' ∉ Nat.toDigits 10 a.status := by
    exact fun h => absurd (Nat.isDigit_of_mem_toDigits (by decide) (by decide) h) (by decide)
  have hreason : '\r' ∉ (reasonPhrase a.status).toList := by
    rw [reasonPhrase.eq_def]
    split <;> decide
  refine fun h => absurd (h.mem List.mem_cons_self) ?_
  simp [statusLine, hdigits, hreason]

theorem oneLine_field (name value : String) :
    OneLine (name ++ ": " ++ value) ↔ OneLine name ∧ OneLine value := by
  have hlist : (name ++ ": " ++ value).toList =
      name.toList ++ ':' :: ([] ++ ' ' :: value.toList) := by
    simp
  rw [OneLine, OneLine, OneLine, hlist, infix_separated_iff (by decide) (by decide),
    infix_separated_iff (by decide) (by decide), not_or, not_or,
    and_iff_right (show ¬ Head.lineBreak <:+: [] by decide)]

/-- **An answer is read as it was meant** if and only if the names and values of its fields are
texts of one line. -/
theorem decode_bytes_iff (a : Answer) : decode a.bytes = some (a.lines, a.data) ↔
    ∀ field ∈ a.fields, OneLine field.1 ∧ OneLine field.2 := by
  have hne : ∀ l ∈ a.lines, l ≠ [] := by
    rw [lines, List.forall_mem_map, List.forall_mem_cons, List.forall_mem_map]
    refine ⟨encode_ne_nil ?_, fun field _ => encode_ne_nil ?_⟩
    · simp [statusLine]
    · simp
  have hlines : a.lines ≠ [] := List.cons_ne_nil _ _
  rw [bytes, decode_eq_some_iff hlines hne, lines, List.forall_mem_map, List.forall_mem_cons,
    List.forall_mem_map]
  simp only [unbroken_encode_iff, oneLine_statusLine, oneLine_field, true_and]

theorem bytes_wrote {c : Context} (data : Bytes) (h : c.headSent = false) :
    (Sending.wrote c data).bytes =
      bytes ⟨c.status, c.headers ++ [("Connection", "close")], data⟩ := by
  rw [bytes_eq, Sending.bytes, h, Context.responseHead_eq]
  rfl

theorem bytes_responded (c : Context) (status : Nat) (type : String) (data : Bytes) :
    (Sending.responded c status type data).bytes =
      bytes ⟨status, c.headers ++ [("Content-Type", type),
        ("Content-Length", toString data.length)], data⟩ := by
  rw [bytes_eq, Sending.bytes, Context.responseHead_eq]
  simp [statusLine, Context.answering, Context.ownField]

end Answer

/-! ## What a handler sets before it answers -/

namespace Request

open Act Exchange

/-- What the head of the response is made of stays as it was, and nothing is sent. -/
structure SameHead (x x' : Exchange) : Prop where
  status : x'.context.status = x.context.status
  headers : x'.context.headers = x.context.headers
  headSent : x'.context.headSent = x.context.headSent
  sent : x'.wire.transport.sent = x.wire.transport.sent

instance : Std.Refl SameHead where
  refl _ := ⟨rfl, rfl, rfl, rfl⟩

instance : IsTrans Exchange SameHead where
  trans _ _ _ h h' := ⟨h'.status.trans h.status, h'.headers.trans h.headers,
    h'.headSent.trans h.headSent, h'.sent.trans h.sent⟩

theorem sameHead_readBody (max : Nat) : Keeps SameHead (readBody max) := by
  intro x
  rcases ensureOpen_cases "read the body" _ x with ⟨e, h⟩ | ⟨-, h⟩ <;> rw [readBody, h]
  · exact refl_of SameHead x
  · rw [context_bind]
    split
    · exact refl_of SameHead x
    · refine rel_bind ?_ fun data y => ⟨rfl, rfl, rfl, rfl⟩
      have hsent : (Io.readSome x.context.deadline "read request body"
          (max.min x.context.remaining) x.wire).2.transport.sent = x.wire.transport.sent := by
        rw [Io.readSome, Wire.others_receive]
      rcases transfer_cases (Io.readSome x.context.deadline "read request body"
        (max.min x.context.remaining)) x with ⟨e, h⟩ | ⟨-, ⟨e, w, hw, h⟩ | ⟨v, w, hw, h⟩⟩ <;> rw [h]
      · exact refl_of SameHead x
      · rw [hw] at hsent
        refine ⟨?_, ?_, ?_, hsent⟩ <;> dsimp only <;> split <;> rfl
      · rw [hw] at hsent
        exact ⟨rfl, rfl, rfl, hsent⟩

/-- What a call sets in the head of the response: its status, or one more field. -/
def Call.status? : Call → Option Nat
  | .setStatus status => some status
  | _ => none

/-- The header that a call adds. -/
def Call.field? : Call → Option (String × String)
  | .setHeader name value => some (name, value)
  | _ => none

/-- The call prepares the head of the response. -/
def Call.Prepares (c : Call) : Prop := c.status?.isSome ∨ c.field?.isSome

/-- The status that is set last, if any. -/
def statusSet (deeds : List Deed) : Nat := ((deeds.filterMap (·.call.status?)).getLast?).getD 200

/-- The fields that are added, in order. -/
def fieldsSet (deeds : List Deed) : List (String × String) := deeds.filterMap (·.call.field?)

/-- What a call says that answers behind others. -/
def Call.answer? (deeds : List Deed) : Call → Option Answer
  | .write data => some ⟨statusSet deeds, fieldsSet deeds ++ [("Connection", "close")], data⟩
  | .respond status type data => some ⟨status,
      fieldsSet deeds ++ [("Content-Type", type), ("Content-Length", toString data.length)], data⟩
  | _ => none

/-- The head of the response is made of what has been set, and has not been sent. -/
structure Prepared (sent₀ : Bytes) (deeds : List Deed) (x : Exchange) : Prop where
  status : x.context.status = statusSet deeds
  headers : x.context.headers = fieldsSet deeds
  fresh : x.context.headSent = false
  sent : x.wire.transport.sent = sent₀
  done : ∀ d ∈ deeds, d.reply = .ok .done

namespace Prepared

variable {sent₀ : Bytes} {deeds : List Deed} {x x' : Exchange}

theorem of_sameHead (h : Prepared sent₀ deeds x) (hsame : SameHead x x') :
    Prepared sent₀ deeds x' :=
  ⟨hsame.status.trans h.status, hsame.headers.trans h.headers, hsame.headSent.trans h.fresh,
    hsame.sent.trans h.sent, h.done⟩

theorem call (h : Prepared sent₀ deeds x) {c : Call} (hc : c.Prepares) :
    Prepared sent₀ (deeds ++ [⟨c, x⟩]) (Deed.after ⟨c, x⟩) := by
  have hfresh := h.fresh
  have hdone (hreply : Deed.reply ⟨c, x⟩ = .ok .done) :
      ∀ d ∈ deeds ++ [⟨c, x⟩], d.reply = .ok .done :=
    List.forall_mem_append.2 ⟨h.done, List.forall_mem_singleton.2 hreply⟩
  cases c with
  | setStatus status =>
    have hcall : Request.call x (.setStatus status) =
        (.ok .done, { x with context := { x.context with status } }) := by
      rw [Request.call, act, bind_apply, setStatus, context_bind, hfresh]
      rfl
    rw [Deed.after, hcall]
    refine ⟨?_, ?_, hfresh, h.sent, hdone (congrArg Prod.fst hcall)⟩
    · simp [statusSet, Call.status?]
    · simp [fieldsSet, Call.field?, h.headers]
  | setHeader name value =>
    have hcall : Request.call x (.setHeader name value) = (.ok .done,
        { x with context := { x.context with
          headers := x.context.headers ++ [(name, value)] } }) := by
      rw [Request.call, act, bind_apply, setHeader, context_bind, hfresh]
      rfl
    rw [Deed.after, hcall]
    refine ⟨?_, ?_, hfresh, h.sent, hdone (congrArg Prod.fst hcall)⟩
    · simp [statusSet, Call.status?, h.status]
    · simp [fieldsSet, Call.field?, h.headers]
  | _ => rcases hc with hc | hc <;> cases hc

end Prepared

theorem prepared_of_handling {x₀ x : Exchange} {deeds : List Deed}
    (hx₀ : Prepared x₀.wire.transport.sent [] x₀) (h : Handling x₀ deeds x)
    (hdeeds : ∀ d ∈ deeds, d.call.Prepares) : Prepared x₀.wire.transport.sent deeds x := by
  induction h with
  | start => exact hx₀
  | @call deeds x₁ _ c ih =>
    obtain ⟨hdeeds, hc⟩ := List.forall_mem_append.1 hdeeds
    exact (ih hdeeds).call (hc _ (List.mem_singleton_self _))
  | @readOn deeds x₁ _ r ih =>
    exact (ih hdeeds).of_sameHead (keeps_doRead sameHead_readBody r x₁)
  | meanwhile _ helapses ih =>
    refine (ih hdeeds).of_sameHead ⟨?_, ?_, ?_, helapses.sent⟩ <;> rw [helapses.context]

/-! ## What is sent -/

theorem sent_of_transfer {x x' : Exchange} {d : Deadline} {operation : String} {data : Bytes}
    (h : transfer (Io.writeAll d operation data) x = (.ok (), x')) :
    x'.wire.transport.sent = x.wire.transport.sent ++ data := by
  rcases transfer_cases (Io.writeAll d operation data) x with
    ⟨e, he⟩ | ⟨-, ⟨e, w, -, he⟩ | ⟨v, w, hw, he⟩⟩ <;> rw [he] at h <;> cases h
  exact Wire.sent_of_send hw

theorem sent_of_write {x x' : Exchange} {data : Bytes} {n : Nat}
    (h : write data x = (.ok n, x')) : x'.wire.transport.sent =
      x.wire.transport.sent ++ (Sending.wrote x.context data).bytes := by
  rcases ensureOpen_cases "write" _ x with ⟨e, he⟩ | ⟨-, he⟩ <;> rw [write, he] at h
  · cases h
  · rw [context_bind, bind_apply] at h
    rcases ht : transfer (Io.writeAll x.context.deadline "write response"
      (Sending.wrote x.context data).bytes) x with ⟨e | u, x₁⟩
    · rw [Sending.bytes] at ht
      rw [ht] at h
      cases h
    · have hsent := sent_of_transfer ht
      rw [Sending.bytes] at ht
      rw [ht] at h
      cases h
      exact hsent

theorem sent_of_responded {x x' : Exchange} {status : Nat} {type : String} {data : Bytes}
    (h : respond status type data x = (.ok (), x')) : x'.wire.transport.sent =
      x.wire.transport.sent ++ (Sending.responded x.context status type data).bytes := by
  rcases ensureOpen_cases "respond" _ x with ⟨e, he⟩ | ⟨-, he⟩ <;> rw [respond, he] at h
  · cases h
  · rw [context_bind] at h
    split at h
    · cases h
    · dsimp only at h
      rw [modify_bind, context_bind, bind_apply] at h
      rcases ht : transfer (Io.writeAll x.context.deadline "write response"
        (Sending.responded x.context status type data).bytes)
        { x with context := x.context.answering status type } with ⟨e | u, x₁⟩
      · rw [Sending.bytes, Context.answering] at ht
        rw [ht] at h
        cases h
      · have hsent := sent_of_transfer ht
        rw [Sending.bytes, Context.answering] at ht
        rw [ht] at h
        cases h
        exact hsent

/-- An answer that succeeds has been sent as a whole, whatever the transport is like. -/
theorem Prepared.sent_answer {sent₀ : Bytes} {deeds : List Deed} {x : Exchange}
    (h : Prepared sent₀ deeds x) {c : Call} {a : Answer} (ha : c.answer? deeds = some a)
    (hok : (Request.call x c).1.isOk = true) :
    (Request.call x c).2.wire.transport.sent = sent₀ ++ a.bytes := by
  cases c with
  | write data =>
    cases ha
    rw [Request.call, act, map_apply] at hok ⊢
    rcases hwrite : write data x with ⟨e | n, x'⟩ <;> rw [hwrite] at hok
    · cases hok
    · rw [sent_of_write hwrite, Answer.bytes_wrote data h.fresh, h.sent, h.status, h.headers]
  | respond status type data =>
    cases ha
    rw [Request.call, act, bind_apply] at hok ⊢
    rcases hrespond : respond status type data x with ⟨e | u, x'⟩ <;> rw [hrespond] at hok
    · cases hok
    · show x'.wire.transport.sent = _
      rw [sent_of_responded hrespond, Answer.bytes_responded, h.sent, h.headers]
  | _ => cases ha

/-- **When a response is read as it was meant.**  A handler has set the status and added fields of
any text, all of which succeeds, and then answers by a write or by a whole response that succeeds,
over whatever transport.  What the peer gets is read as one status line, the fields that were
added, each in a line of its own and in their order, the fields of the context, and the data, if and
only if all names and values are texts of one line. -/
theorem decode_sent_iff {clock : Clock} {head : Head} {timeout : Int} {token : Token}
    {holder : Holder} {wire : Wire} {deeds : List Deed} {x : Exchange}
    (h : Handling { context := .new clock head timeout token holder, wire } deeds x)
    (hdeeds : ∀ d ∈ deeds, d.call.Prepares) {c : Call} {a : Answer}
    (ha : c.answer? deeds = some a) (hok : (call x c).1.isOk = true) :
    (∀ d ∈ deeds, d.reply = .ok .done) ∧
      ∃ sent, (call x c).2.wire.transport.sent = wire.transport.sent ++ sent ∧
        (decode sent = some (a.lines, a.data) ↔
          ∀ field ∈ a.fields, OneLine field.1 ∧ OneLine field.2) := by
  have hstart : Prepared wire.transport.sent []
      { context := .new clock head timeout token holder, wire } :=
    ⟨rfl, rfl, rfl, rfl, fun _ hd => absurd hd List.not_mem_nil⟩
  have hprepared := prepared_of_handling hstart h hdeeds
  exact ⟨hprepared.done, a.bytes, hprepared.sent_answer ha hok, a.decode_bytes_iff⟩

/-- A carriage return by itself does no harm, nor does an empty line in the data. -/
theorem decode_sent_iff_lone_return :
    ∃ (deeds : List Deed) (x : Exchange),
      Handling (Conversation.start (.new "GET" "/") (-1) {}).exchange deeds x ∧
        deeds.map (·.call) = [.setStatus 404, .setHeader "X-Note" "a\r: b"] ∧
        decode (call x (.write [13, 10, 13, 10])).2.wire.transport.sent =
          some (["HTTP/1.1 404 Not Found", "X-Note: a\r: b", "Connection: close"].map Utf8.encode,
            [13, 10, 13, 10]) := by
  have handling : Handling (Conversation.start (.new "GET" "/") (-1) {}).exchange _ _ :=
    .call (.call .start (.setStatus 404)) (.setHeader "X-Note" "a\r: b")
  have hdeeds : ∀ c ∈ [Call.setStatus 404, .setHeader "X-Note" "a\r: b"], c.Prepares :=
    List.forall_mem_cons.2 ⟨.inl rfl, List.forall_mem_singleton.2 (.inr rfl)⟩
  obtain ⟨-, sent, hsent, hdecode⟩ := decode_sent_iff handling
    (List.forall_mem_map.1 hdeeds) (c := .write [13, 10, 13, 10]) rfl (by decide +kernel)
  refine ⟨_, _, handling, rfl, ?_⟩
  rw [hsent]
  exact hdecode.2 (by decide +kernel)

/-- A header whose value has a line break is read as two headers. -/
theorem split_header :
    ∃ (deeds : List Deed) (x : Exchange),
      Handling (Conversation.start (.new "GET" "/") (-1) {}).exchange deeds x ∧
        deeds.map (·.call) = [.setHeader "X-Note" "a\r\nSet-Cookie: b"] ∧
        (∀ d ∈ deeds, d.reply = .ok .done) ∧ (call x (.write [])).1.isOk = true ∧
        decode (call x (.write [])).2.wire.transport.sent =
          some (["HTTP/1.1 200 OK", "X-Note: a", "Set-Cookie: b", "Connection: close"].map
            Utf8.encode, []) := by
  have handling : Handling (Conversation.start (.new "GET" "/") (-1) {}).exchange _ _ :=
    .call .start (.setHeader "X-Note" "a\r\nSet-Cookie: b")
  exact ⟨_, _, handling, rfl, List.forall_mem_singleton.2 rfl, by decide +kernel,
    by decide +kernel⟩

end Request

end ScriptHost
