import Mathlib.Data.List.Basic
import ScriptHost.Text.Utf8

/-!
# Reading back a text that has been written

A decoder takes the form of a character in one piece, whatever follows it (`next_encodeChar`).  So
the form of a text is read without a fault, and even the lenient reader gives back the text itself
(`decodeLossy_encode`).
-/

set_option autoImplicit false

namespace ScriptHost.Utf8

/-- A character is none of the code points that stand for halves of others. -/
theorem toNat_char (c : Char) :
    c.toNat < 0xd800 ∨ 0xdfff < c.toNat ∧ c.toNat < 0x110000 := c.valid

theorem within_toUInt8 {n first last : Nat} (hfirst : first ≤ n) (hlast : n ≤ last)
    (h : n < 0x100) : within n.toUInt8 first last = true := by
  rw [within, toNat_toUInt8 h, Bool.and_eq_true, decide_eq_true_eq, decide_eq_true_eq]
  exact ⟨hfirst, hlast⟩

/-- The byte that carries six bits of a character, behind the first. -/
theorem isTail_low {n : Nat} (h : n < 0x40) :
    isTail (0x80 + n).toUInt8 = true ∧ low (0x80 + n).toUInt8 = n := by
  refine ⟨within_toUInt8 (by omega) (by omega) (by omega), ?_⟩
  rw [low, toNat_toUInt8 (by omega)]
  omega

/-! ## Forms of one, two, three and four bytes -/

variable {m n k l : Nat}

theorem next_one (h : n < 0x80) (rest : Bytes) :
    next n.toUInt8 rest = (some (Char.ofNat n), rest) := by
  rw [next.eq_def, toNat_toUInt8 (by omega), if_pos h]

theorem next_two (hmin : 2 ≤ m) (hm : m < 0x20) (hn : n < 0x40) (rest : Bytes) :
    next (0xc0 + m).toUInt8 ((0x80 + n).toUInt8 :: rest) =
      (some (Char.ofNat (m * 0x40 + n)), rest) := by
  have hfirst : within (0xc0 + m).toUInt8 0xc2 0xdf = true :=
    within_toUInt8 (by omega) (by omega) (by omega)
  obtain ⟨htail, hlow⟩ := isTail_low hn
  rw [next.eq_def, toNat_toUInt8 (by omega), if_neg (by omega), if_pos hfirst]
  simp only [htail, if_true, hlow]
  rw [Nat.add_sub_cancel_left]

/-- Behind a first byte of three or four come those that make no shorter form, half a character or a
code point that is too large. -/
theorem within_secondRange (hn : n < 0x40) (hm : m < 0x100)
    (hshort : m = 0xe0 → 0x20 ≤ n) (hhalf : m = 0xed → n < 0x20)
    (hshort' : m = 0xf0 → 0x10 ≤ n) (hlarge : m = 0xf4 → n < 0x10) :
    within (0x80 + n).toUInt8 (secondRange m.toUInt8).1 (secondRange m.toUInt8).2 = true := by
  rw [secondRange, toNat_toUInt8 hm]
  split <;> exact within_toUInt8 (by omega) (by omega) (by omega)

theorem next_three (hm : m < 0x10) (hn : n < 0x40) (hk : k < 0x40) (hshort : m = 0 → 0x20 ≤ n)
    (hhalf : m = 0xd → n < 0x20) (rest : Bytes) :
    next (0xe0 + m).toUInt8 ((0x80 + n).toUInt8 :: (0x80 + k).toUInt8 :: rest) =
      (some (Char.ofNat (m * 0x1000 + n * 0x40 + k)), rest) := by
  have hnot : within (0xe0 + m).toUInt8 0xc2 0xdf = false := by
    rw [within, toNat_toUInt8 (by omega), Bool.and_eq_false_iff, decide_eq_false_iff_not,
      decide_eq_false_iff_not]
    omega
  have hfirst : within (0xe0 + m).toUInt8 0xe0 0xef = true :=
    within_toUInt8 (by omega) (by omega) (by omega)
  have hsecond := within_secondRange (m := 0xe0 + m) hn (by omega) (by omega) (by omega)
    (by omega) (by omega)
  rw [next.eq_def, toNat_toUInt8 (by omega), if_neg (by omega), hnot, if_neg Bool.false_ne_true,
    if_pos hfirst]
  simp only [hsecond, (isTail_low hk).1, if_true, (isTail_low hn).2, (isTail_low hk).2]
  rw [Nat.add_sub_cancel_left]

theorem next_four (hm : m < 5) (hn : n < 0x40) (hk : k < 0x40) (hl : l < 0x40)
    (hshort : m = 0 → 0x10 ≤ n) (hlarge : m = 4 → n < 0x10) (rest : Bytes) :
    next (0xf0 + m).toUInt8
        ((0x80 + n).toUInt8 :: (0x80 + k).toUInt8 :: (0x80 + l).toUInt8 :: rest) =
      (some (Char.ofNat (m * 0x40000 + n * 0x1000 + k * 0x40 + l)), rest) := by
  have hnot {first last : Nat} (hlast : last < 0xf0) :
      within (0xf0 + m).toUInt8 first last = false := by
    rw [within, toNat_toUInt8 (by omega), Bool.and_eq_false_iff, decide_eq_false_iff_not,
      decide_eq_false_iff_not]
    omega
  have hfirst : within (0xf0 + m).toUInt8 0xf0 0xf4 = true :=
    within_toUInt8 (by omega) (by omega) (by omega)
  have hsecond := within_secondRange (m := 0xf0 + m) hn (by omega) (by omega) (by omega)
    (by omega) (by omega)
  rw [next.eq_def, toNat_toUInt8 (by omega), if_neg (by omega), hnot (by decide),
    if_neg Bool.false_ne_true, hnot (by decide), if_neg Bool.false_ne_true, if_pos hfirst]
  simp only [hsecond, (isTail_low hk).1, (isTail_low hl).1, if_true, (isTail_low hn).2,
    (isTail_low hk).2, (isTail_low hl).2]
  rw [Nat.add_sub_cancel_left]

/-! ## Characters and texts -/

/-- The form of a character is not empty, and a decoder that meets it takes it as a whole. -/
theorem next_encodeChar (c : Char) (rest : Bytes) :
    ∃ a tail, encodeChar c ++ rest = a :: tail ∧ next a tail = (some c, rest) := by
  have hc := toNat_char c
  rw [encodeChar.eq_def]
  dsimp only
  have heq {n : Nat} (hn : n = c.toNat) : (some (Char.ofNat n), rest) = (some c, rest) := by
    rw [hn, Char.ofNat_toNat]
  split_ifs with h₁ h₂ h₃
  · exact ⟨_, _, rfl, (next_one h₁ rest).trans (heq rfl)⟩
  · exact ⟨_, _, rfl, (next_two (by omega) (by omega) (by omega) rest).trans (heq (by omega))⟩
  · exact ⟨_, _, rfl, (next_three (by omega) (by omega) (by omega) (by omega) (by omega) rest).trans
      (heq (by omega))⟩
  · exact ⟨_, _, rfl, (next_four (by omega) (by omega) (by omega) (by omega) (by omega) (by omega)
      rest).trans (heq (by omega))⟩

theorem scanAfter_encode (found : List (Option Char)) (cs : List Char) (rest : Bytes) :
    scanAfter found (cs.flatMap encodeChar ++ rest) =
      scanAfter ((cs.map some).reverse ++ found) rest := by
  induction cs generalizing found with
  | nil => rfl
  | cons c cs ih =>
    obtain ⟨a, tail, htext, hnext⟩ := next_encodeChar c (cs.flatMap encodeChar ++ rest)
    rw [List.flatMap_cons, List.append_assoc, htext, scanAfter, hnext, ih, List.map_cons,
      List.reverse_cons, List.append_assoc]
    rfl

/-- The form of a text has no faults. -/
theorem scan_encode (text : String) : scan (encode text) = text.toList.map some := by
  have h := scanAfter_encode [] text.toList []
  rwa [List.append_nil, List.append_nil, scanAfter, List.reverse_reverse] at h

theorem decodeLossy_encode (text : String) : decodeLossy (encode text) = text := by
  rw [decodeLossy, scan_encode, List.map_map]
  exact (congrArg String.ofList (List.map_id _)).trans String.ofList_toList

end ScriptHost.Utf8
