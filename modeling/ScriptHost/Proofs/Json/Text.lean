import ScriptHost.Http.Config
import Mathlib.Data.List.Basic

/-!
# JSON texts are read in one way only

A value that goes into a JSON text can be told from the text, and where its own text ends, too:
whatever stands behind it (`Json.Readable`).  Literals are so because what is escaped can be told
from what ends the literal, and texts that are put together of readable ones are.  A number is
readable only up to a character that is no digit.

It follows that equal texts of two configurations of HTTP clients come from equal configurations
(`HttpClientConfig.signature_injective`).
-/

set_option autoImplicit false

namespace ScriptHost

namespace Json

/-- What a text stands for, and where it ends, does not depend on what stands behind it. -/
def Readable {α : Type} (write : α → List Char) : Prop :=
  ∀ ⦃a b : α⦄ ⦃x y : List Char⦄, write a ++ x = write b ++ y → a = b ∧ x = y

/-! ## Literals -/

/-- The character that is written at the beginning of a text, and what stands behind it. -/
def unescape : List Char → Option (Char × List Char)
  | '\\' :: 'n' :: rest => some ('\n', rest)
  | '\\' :: 'r' :: rest => some ('\r', rest)
  | '\\' :: 't' :: rest => some ('\t', rest)
  | '\\' :: 'b' :: rest => some (Char.ofNat 8, rest)
  | '\\' :: 'f' :: rest => some (Char.ofNat 12, rest)
  | '\\' :: 'u' :: _ :: _ :: a :: b :: rest => some (Char.ofNat (Text.hexValue [a, b]), rest)
  | '\\' :: c :: rest => some (c, rest)
  | c :: rest => some (c, rest)
  | [] => none

theorem unescape_literalChar (c : Char) (x : List Char) :
    unescape (literalChar c ++ x) = some (c, x) := by
  rw [literalChar]
  split_ifs with hquote hslash hn hr ht hb hf hcontrol
  · rw [hquote]; rfl
  · rw [hslash]; rfl
  · rw [hn]; rfl
  · rw [hr]; rfl
  · rw [ht]; rfl
  · rw [← Char.ofNat_toNat c, hb]; rfl
  · rw [← Char.ofNat_toNat c, hf]; rfl
  · have hvalue : ∀ n < 32, Text.hexValue [hexDigit (n / 16), hexDigit n] = n := by decide
    show some (Char.ofNat (Text.hexValue [hexDigit (c.toNat / 16), hexDigit c.toNat]), x) = _
    rw [hvalue c.toNat hcontrol, Char.ofNat_toNat]
  · exact unescape.eq_8 c x (fun _ h _ => hslash h) (fun _ h _ => hslash h) (fun _ h _ => hslash h)
      (fun _ h _ => hslash h) (fun _ h _ => hslash h) (fun _ _ _ _ _ h _ => hslash h)
      (fun _ _ h _ => hslash h)

theorem readable_literalChar : Readable literalChar := fun c d x y h => by
  have hread := congrArg unescape h
  rw [unescape_literalChar, unescape_literalChar] at hread
  exact Prod.mk.inj (Option.some.inj hread)

/-- What is escaped does not begin with a quotation mark. -/
theorem literalChar_append_ne (c : Char) (x y : List Char) : literalChar c ++ x ≠ '"' :: y := by
  rw [literalChar]
  split_ifs with hquote
  all_goals intro h
  all_goals cases h
  exact hquote rfl

theorem readable_literal : Readable literal := by
  have body (cs ds : List Char) {x y : List Char}
      (h : cs.flatMap literalChar ++ '"' :: x = ds.flatMap literalChar ++ '"' :: y) :
      cs = ds ∧ x = y := by
    induction cs generalizing ds with
    | nil =>
      cases ds with
      | nil => exact ⟨rfl, List.tail_eq_of_cons_eq h⟩
      | cons d ds =>
        rw [List.flatMap_cons, List.append_assoc] at h
        exact absurd h.symm (literalChar_append_ne d _ x)
    | cons c cs ih =>
      cases ds with
      | nil =>
        rw [List.flatMap_cons, List.append_assoc] at h
        exact absurd h (literalChar_append_ne c _ y)
      | cons d ds =>
        rw [List.flatMap_cons, List.flatMap_cons, List.append_assoc, List.append_assoc] at h
        obtain ⟨rfl, hrest⟩ := readable_literalChar h
        obtain ⟨rfl, hxy⟩ := ih ds hrest
        exact ⟨rfl, hxy⟩
  intro s t x y h
  simp only [literal, List.cons_append, List.append_assoc, List.cons.injEq, true_and] at h
  obtain ⟨hst, hxy⟩ := body _ _ h
  exact ⟨String.toList_injective hst, hxy⟩

/-! ## Values -/

theorem readable_bool : Readable fun b => (bool b).chars := by
  rintro (_ | _) (_ | _) x y h <;> first | cases h; exact ⟨rfl, rfl⟩ | cases h

theorem readable_ofOption : Readable fun s => (ofOption s).chars := by
  rintro (_ | s) (_ | t) x y h
  · cases h
    exact ⟨rfl, rfl⟩
  · cases h
  · cases h
  · obtain ⟨rfl, hxy⟩ := readable_literal h
    exact ⟨rfl, hxy⟩

theorem fieldChars_cons (name : String) (value : Json) (rest : List (String × Json)) :
    fieldChars ((name, value) :: rest) =
      literal name ++ ':' :: (value.chars ++ if rest = [] then [] else ',' :: fieldChars rest) := by
  cases rest with
  | nil =>
    rw [if_pos rfl, List.append_nil]
    rfl
  | cons =>
    rw [if_neg (List.cons_ne_nil _ _)]
    rfl

/-- An object of texts, with any names in any order. -/
theorem readable_texts :
    Readable fun fields : Record String => (obj (fields.map fun (n, v) => (n, .str v))).chars := by
  have body (fields fields' : Record String) {x y : List Char}
      (h : fieldChars (fields.map fun (n, v) => (n, .str v)) ++ '\x7d' :: x =
        fieldChars (fields'.map fun (n, v) => (n, .str v)) ++ '\x7d' :: y) :
      fields = fields' ∧ x = y := by
    induction fields generalizing fields' with
    | nil =>
      cases fields' with
      | nil =>
        cases h
        exact ⟨rfl, rfl⟩
      | cons field' fields' =>
        rw [List.map_cons, fieldChars_cons] at h
        cases h
    | cons field fields ih =>
      cases fields' with
      | nil =>
        rw [List.map_cons, fieldChars_cons] at h
        cases h
      | cons field' fields' =>
        obtain ⟨name, value⟩ := field
        obtain ⟨name', value'⟩ := field'
        rw [List.map_cons, List.map_cons, fieldChars_cons, fieldChars_cons] at h
        simp only [List.append_assoc, List.cons_append, chars, List.map_eq_nil_iff] at h
        obtain ⟨rfl, hvalue⟩ := readable_literal h
        obtain ⟨rfl, hmore⟩ := readable_literal (List.cons.inj hvalue).2
        by_cases hnil : fields = [] <;> by_cases hnil' : fields' = []
        · rw [if_pos hnil, if_pos hnil'] at hmore
          cases hmore
          rw [hnil, hnil']
          exact ⟨rfl, rfl⟩
        · rw [if_pos hnil, if_neg hnil'] at hmore
          cases hmore
        · rw [if_neg hnil, if_pos hnil'] at hmore
          cases hmore
        · rw [if_neg hnil, if_neg hnil'] at hmore
          obtain ⟨rfl, hxy⟩ := ih fields' (List.cons.inj hmore).2
          exact ⟨rfl, hxy⟩
  intro fields fields' x y h
  simp only [chars, List.cons_append, List.append_assoc, List.cons.injEq, true_and] at h
  exact body fields fields' h

theorem intChars_natCast (n : Nat) : intChars n = Nat.toDigits 10 n := Nat.toList_repr

/-- The digits of a number, if one knows where they end. -/
theorem intChars_natCast_injective {m n : Nat} (h : intChars m = intChars n) : m = n := by
  rw [intChars_natCast, intChars_natCast] at h
  calc
    m = Nat.ofDigitChars 10 (Nat.toDigits 10 m) 0 := Nat.ofDigitChars_ten_toDigits.symm
    _ = Nat.ofDigitChars 10 (Nat.toDigits 10 n) 0 := by rw [h]
    _ = n := Nat.ofDigitChars_ten_toDigits

/-- A field of an object, and what stands behind it. -/
theorem Readable.field {α : Type} {write : α → List Char} (hwrite : Readable write)
    (name : List Char) {a b : α} {x y : List Char}
    (h : name ++ ':' :: (write a ++ ',' :: x) = name ++ ':' :: (write b ++ ',' :: y)) :
    a = b ∧ x = y := by
  obtain ⟨hab, hxy⟩ := hwrite (List.cons.inj (List.append_cancel_left h)).2
  exact ⟨hab, (List.cons.inj hxy).2⟩

end Json

namespace HttpClientConfig

open Json

/-- The fields of a configuration stand in the order of their names. -/
theorem chars_toJson (c : HttpClientConfig) :
    c.toJson.chars = '\x7b' :: (literal "base_url" ++ ':' :: ((ofOption c.baseUrl).chars ++ ',' ::
      (literal "follow_redirects" ++ ':' :: ((bool c.followRedirects).chars ++ ',' ::
      (literal "headers" ++ ':' :: ((obj (c.headers.map fun (n, v) => (n, .str v))).chars ++ ',' ::
      (literal "proxy" ++ ':' :: ((ofOption c.proxy).chars ++ ',' ::
      (literal "skip_insecure_verify" ++ ':' :: ((bool c.skipInsecureVerify).chars ++ ',' ::
      (literal "timeout_ms" ++ ':' :: intChars c.timeoutMs))))))))))) ++ ['\x7d'] := by
  have hfields : c.toJson = obj [("base_url", ofOption c.baseUrl),
      ("follow_redirects", bool c.followRedirects),
      ("headers", obj (c.headers.map fun (n, v) => (n, .str v))), ("proxy", ofOption c.proxy),
      ("skip_insecure_verify", bool c.skipInsecureVerify), ("timeout_ms", int c.timeoutMs)] := by
    rfl
  rw [hfields]
  rfl

/-- **Clients share a signature only if their configurations are equal.** -/
theorem signature_injective : Function.Injective signature := by
  intro c c' h
  have hchars := String.ofList_injective h
  rw [chars_toJson, chars_toJson] at hchars
  have hbody := List.append_cancel_right hchars
  obtain ⟨hbase, hbody⟩ := readable_ofOption.field _ (List.cons.inj hbody).2
  obtain ⟨hfollow, hbody⟩ := readable_bool.field _ hbody
  obtain ⟨hheaders, hbody⟩ := readable_texts.field _ hbody
  obtain ⟨hproxy, hbody⟩ := readable_ofOption.field _ hbody
  obtain ⟨hskip, hbody⟩ := readable_bool.field _ hbody
  have htimeout := intChars_natCast_injective (List.cons.inj (List.append_cancel_left hbody)).2
  cases c
  cases c'
  simp only at hbase hfollow hheaders hproxy hskip htimeout
  rw [hbase, hfollow, hheaders, hproxy, hskip, htimeout]

end HttpClientConfig

end ScriptHost
