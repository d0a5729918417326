import ScriptHost.Json.Reader
import ScriptHost.Proofs.Json.Text

/-!
# What is written is read back

The reader makes a tree of a text before it makes a value of the tree.  Here a value that is written
gives the tree of the value, with nothing wrong in it or behind it (`Json.scan_text`).

The reader works through a text from left to right, so what is said of a part of it has to hold
whatever the rest is: a part reads back (`Json.ReadsBack`) if its tree is found and exactly the rest
is left.  A rest must not go on with the part, which is a condition for numbers only, and what
stands behind a value in a list or an object meets it (`Json.Separated`).  Numbers, strings, lists
and objects follow one by one; integers read back as long as they fit into 64 bits.
-/

set_option autoImplicit false

namespace ScriptHost.Json

/-! ## Numbers -/

/-- The digits at the start of a text are read up to the first character that is none. -/
theorem digits_append {cs rest : List Char} (hcs : ∀ c ∈ cs, c.isDigit = true)
    (hrest : ∀ c ∈ rest.head?, c.isDigit = false) :
    digits (cs ++ rest) = (cs.map fun c => c.toNat - '0'.toNat, rest) := by
  induction cs with
  | nil =>
    cases rest with
    | nil => rfl
    | cons c rest =>
      have hc : digit? c = none := by rw [digit?, hrest c rfl]; rfl
      simp only [List.nil_append, digits, hc, List.map_nil]
  | cons c cs ih =>
    have hc : digit? c = some (c.toNat - '0'.toNat) := if_pos (hcs c (List.mem_cons_self ..))
    simp only [List.cons_append, digits, hc, ih fun d hd => hcs d (List.mem_cons_of_mem _ hd),
      List.map_cons]

theorem ofDigitChars_cons (c : Char) (cs : List Char) (n : Nat) :
    Nat.ofDigitChars 10 (c :: cs) n = Nat.ofDigitChars 10 cs (n * 10 + (c.toNat - '0'.toNat)) := by
  rw [Nat.mul_comm]
  rfl

theorem le_ofDigitChars (cs : List Char) (n : Nat) : n ≤ Nat.ofDigitChars 10 cs n := by
  induction cs generalizing n with
  | nil => exact Nat.le_refl n
  | cons c cs ih =>
    rw [ofDigitChars_cons]
    exact Nat.le_trans (by omega) (ih _)

/-- As long as a number fits into 64 bits, no digit of it is skipped. -/
theorem wholePart_digits {cs : List Char} {n : Nat} (h : Nat.ofDigitChars 10 cs n ≤ maxNat) :
    Numeral.wholePart (cs.map fun c => c.toNat - '0'.toNat) n = (Nat.ofDigitChars 10 cs n, 0) := by
  induction cs generalizing n with
  | nil => rfl
  | cons c cs ih =>
    rw [ofDigitChars_cons] at h ⊢
    have hfits : Numeral.fits n (c.toNat - '0'.toNat) = true :=
      decide_eq_true (Nat.le_trans (le_ofDigitChars cs _) h)
    rw [List.map_cons, Numeral.wholePart, if_pos hfits, ih h]

/-- A positive number does not begin with a zero. -/
theorem head_toDigits {n : Nat} (h : 0 < n) :
    ∃ c cs, Nat.toDigits 10 n = c :: cs ∧ c.toNat - '0'.toNat ≠ 0 := by
  induction n using Nat.strongRecOn with
  | _ n ih =>
    by_cases hn : n < 10
    · have hdigit : ∀ n < 10, 0 < n → (Nat.digitChar n).toNat - '0'.toNat ≠ 0 := by decide
      exact ⟨Nat.digitChar n, [], Nat.toDigits_of_lt_base hn, hdigit n hn h⟩
    · obtain ⟨c, cs, hcs, hc⟩ := ih (n / 10) (by omega) (by omega)
      have happend : Nat.toDigits 10 (n / 10) ++ Nat.toDigits 10 (n % 10) = Nat.toDigits 10 n := by
        rw [Nat.toDigits_append_toDigits (by decide) (by omega) (by omega), Nat.div_add_mod]
      rw [← happend, hcs]
      exact ⟨c, _, rfl, hc⟩

/-- What may stand behind a value: nothing, or what separates or closes. -/
def Separated (rest : List Char) : Prop := ∀ c ∈ rest.head?, c = ',' ∨ c = ']' ∨ c = '\x7d'

/-- The numeral of a natural number. -/
def numeral (negative : Bool) (n : Nat) : Numeral :=
  ⟨negative, (Nat.toDigits 10 n).map fun c => c.toNat - '0'.toNat, [], none, false⟩

/-- A number ends where the next character neither is a digit nor goes on with a fraction or an
exponent. -/
theorem scanFraction_separated {num : Numeral} (hnum : num.exponent = none ∧ num.real = false)
    {rest : List Char} (h : Separated rest) : scanFraction num rest = (num.toTree, some rest) := by
  obtain ⟨negative, whole, fraction, exponent, real⟩ := num
  obtain ⟨rfl, rfl⟩ := hnum
  cases rest with
  | nil => rfl
  | cons c rest => obtain rfl | rfl | rfl := h c rfl <;> rfl

theorem scanNumber_toDigits (negative : Bool) (n : Nat) {rest : List Char} (h : Separated rest) :
    scanNumber negative (Nat.toDigits 10 n ++ rest) = ((numeral negative n).toTree, some rest) := by
  have hdigits : digits (Nat.toDigits 10 n ++ rest) = ((numeral negative n).whole, rest) := by
    refine digits_append (fun c hc => Nat.isDigit_of_mem_toDigits (by decide) (by decide) hc) ?_
    intro c hc
    obtain rfl | rfl | rfl := h c hc <;> rfl
  have hbehind : scanFraction (numeral negative n) rest =
      ((numeral negative n).toTree, some rest) :=
    scanFraction_separated ⟨rfl, rfl⟩ h
  rw [scanNumber, hdigits]
  rcases Nat.eq_zero_or_pos n with rfl | hn
  · exact hbehind
  · obtain ⟨c, cs, hcs, hc⟩ := head_toDigits hn
    split
    · rename_i hnil
      simp [numeral, hcs] at hnil
    · rename_i hzero
      simp only [numeral, hcs, List.map_cons, Prod.mk.injEq, List.cons.injEq] at hzero
      exact absurd hzero.1.1 hc
    · rename_i heq
      cases heq
      exact hbehind

theorem wholePart_numeral {negative : Bool} {n : Nat} (h : n ≤ maxNat) :
    Numeral.wholePart (numeral negative n).whole 0 = (n, 0) := by
  have hn : Nat.ofDigitChars 10 (Nat.toDigits 10 n) 0 = n := Nat.ofDigitChars_ten_toDigits
  rw [numeral, wholePart_digits (by rwa [hn]), hn]

theorem toTree_numeral {n : Nat} (h : n ≤ maxNat) : (numeral false n).toTree = .int n := by
  rw [Numeral.toTree, wholePart_numeral h]
  simp [numeral]

theorem toTree_numeral_neg {n : Nat} (hpos : n ≠ 0) (h : n ≤ 0x8000000000000000) :
    (numeral true n).toTree = .int (-n) := by
  rw [Numeral.toTree, wholePart_numeral (Nat.le_trans h (by decide))]
  simp [numeral, hpos, h]

/-! ## Strings -/

/-- Four hexadecimal digits for a control character. -/
theorem hex4?_control (n : Nat) (h : n < 32) :
    hex4? '0' '0' (hexDigit (n / 16)) (hexDigit n) = some n := by
  revert n
  decide

theorem piece_literalChar (c : Char) (x : List Char) : piece (literalChar c ++ x) = .char c x := by
  rw [literalChar]
  split_ifs with hquote hslash hn hr ht hb hf hcontrol
  · rw [hquote]; rfl
  · rw [hslash]; rfl
  · rw [hn]; rfl
  · rw [hr]; rfl
  · rw [ht]; rfl
  · rw [← Char.ofNat_toNat c, hb]; rfl
  · rw [← Char.ofNat_toNat c, hf]; rfl
  · have hlow : isLow c.toNat = false := by simp [isLow]; omega
    have hhigh : isHigh c.toNat = false := by simp [isHigh]; omega
    simp [piece, hex4?_control c.toNat hcontrol, hlow, hhigh, Char.ofNat_toNat]
  · rw [List.singleton_append, piece.eq_def]
    split <;> simp_all

/-- A character of a string is read, whatever stands behind it. -/
theorem scanText_of_piece {fault : Option Break} {acc cs rest : List Char} {c : Char}
    (h : piece cs = .char c rest) : scanText fault acc cs = scanText fault (c :: acc) rest := by
  cases cs with
  | nil => cases h
  | cons d cs =>
    rw [scanText.eq_def]
    dsimp only
    split
    all_goals
      rename_i hpiece
      rw [h] at hpiece
      cases hpiece
    rfl

theorem scanText_closed (acc rest : List Char) :
    scanText none acc ('"' :: rest) = (.ok (String.ofList acc.reverse), .ok rest) := by
  rw [scanText.eq_def]
  rfl

theorem scanText_literal (cs acc rest : List Char) :
    scanText none acc (cs.flatMap literalChar ++ '"' :: rest) =
      (.ok (String.ofList (acc.reverse ++ cs)), .ok rest) := by
  induction cs generalizing acc with
  | nil => rw [List.flatMap_nil, List.nil_append, List.append_nil, scanText_closed]
  | cons c cs ih =>
    rw [List.flatMap_cons, List.append_assoc, scanText_of_piece (piece_literalChar c _), ih,
      List.reverse_cons, List.append_assoc, List.singleton_append]

theorem scanText_name (name : String) (rest : List Char) :
    scanText none [] (name.toList.flatMap literalChar ++ '"' :: rest) = (.ok name, .ok rest) := by
  rw [scanText_literal, List.reverse_nil, List.nil_append, String.ofList_toList]

/-! ## Values -/

/-- The text of a value is read as its tree, whatever it is followed by. -/
structure ReadsBack (j : Json) : Prop where
  starts : ∃ c cs, j.chars = c :: cs ∧ isJsonBlank c = false ∧ c ≠ ']'
  scan : ∀ ⦃fuel : Nat⦄ ⦃rest : List Char⦄, j.chars.length ≤ fuel → Separated rest →
    scanValue fuel (j.chars ++ rest) = (j.toTree, some rest)

theorem skipBlank_cons {c : Char} (h : isJsonBlank c = false) (cs : List Char) :
    skipBlank (c :: cs) = c :: cs := by
  rw [skipBlank, List.dropWhile_cons_of_neg (by simp [h])]

namespace ReadsBack

theorem skipBlank {j : Json} (h : j.ReadsBack) (rest : List Char) :
    Json.skipBlank (j.chars ++ rest) = j.chars ++ rest := by
  obtain ⟨c, cs, hchars, hblank, -⟩ := h.starts
  rw [hchars, List.cons_append, skipBlank_cons hblank]

theorem length_pos {j : Json} (h : j.ReadsBack) : 0 < j.chars.length := by
  obtain ⟨c, cs, hchars, -⟩ := h.starts
  rw [hchars]
  exact Nat.succ_pos _

theorem null : ReadsBack .null where
  starts := ⟨'n', _, rfl, rfl, by decide⟩
  scan fuel rest hfuel _ := by
    cases fuel with
    | zero => cases hfuel
    | succ fuel => rfl

theorem bool (b : Bool) : ReadsBack (.bool b) where
  starts := by cases b <;> exact ⟨_, _, rfl, rfl, by decide⟩
  scan fuel rest hfuel _ := by
    cases fuel with
    | zero => cases b <;> cases hfuel
    | succ fuel => cases b <;> rfl

theorem str (s : String) : ReadsBack (.str s) where
  starts := ⟨'"', _, rfl, rfl, by decide⟩
  scan fuel rest hfuel _ := by
    cases fuel with
    | zero => cases hfuel
    | succ fuel =>
      have htext : (Json.str s).chars ++ rest =
          '"' :: (s.toList.flatMap literalChar ++ '"' :: rest) := by
        simp [chars, literal]
      rw [htext, scanValue, skipBlank_cons rfl]
      simp only [scanText_name]
      rfl

end ReadsBack

theorem isJsonBlank_of_isDigit {c : Char} (h : c.isDigit = true) : isJsonBlank c = false := by
  refine Bool.eq_false_iff.2 fun hblank => ?_
  simp only [isJsonBlank, Bool.or_eq_true, decide_eq_true_eq] at hblank
  obtain ((rfl | rfl) | rfl) | rfl := hblank <;> cases h

/-- A value that begins with a digit is a number. -/
theorem scanValue_digit {c : Char} (h : c.isDigit = true) (fuel : Nat) (cs : List Char) :
    scanValue (fuel + 1) (c :: cs) = scanNumber false (c :: cs) := by
  rw [scanValue, skipBlank_cons (isJsonBlank_of_isDigit h)]
  split
  case h_9 =>
    rename_i heq
    cases heq
    rw [if_pos h]
  all_goals
    rename_i heq
    cases heq
    try cases h

theorem intChars_negSucc (n : Nat) : intChars (.negSucc n) = '-' :: Nat.toDigits 10 (n + 1) := by
  have htext : toString (Int.negSucc n) = "-" ++ (n + 1).repr := rfl
  rw [intChars, htext, String.toList_append, Nat.toList_repr]
  rfl

namespace ReadsBack

theorem natural {n : Nat} (h : n ≤ maxNat) : ReadsBack (.int n) := by
  have hchars : (Json.int n).chars = Nat.toDigits 10 n := intChars_natCast n
  obtain ⟨c, cs, hcs⟩ := List.exists_cons_of_ne_nil (Nat.toDigits_ne_nil (n := n) (b := 10))
  have hdigit : c.isDigit = true :=
    Nat.isDigit_of_mem_toDigits (by decide) (by decide) (hcs ▸ List.mem_cons_self ..)
  refine ⟨⟨c, cs, hchars.trans hcs, isJsonBlank_of_isDigit hdigit, ?_⟩,
    fun fuel rest hfuel hrest => ?_⟩
  · rintro rfl
    cases hdigit
  · rw [hchars, hcs] at hfuel
    obtain ⟨fuel, rfl⟩ := Nat.exists_eq_succ_of_ne_zero (Nat.ne_zero_of_lt hfuel)
    have hnumber := scanNumber_toDigits false n hrest
    rw [toTree_numeral h, hcs] at hnumber
    rw [hchars, hcs, List.cons_append, scanValue_digit hdigit]
    exact hnumber

theorem negative {n : Nat} (h : n + 1 ≤ 0x8000000000000000) : ReadsBack (.int (.negSucc n)) where
  starts := ⟨'-', _, intChars_negSucc n, rfl, by decide⟩
  scan fuel rest hfuel hrest := by
    have hchars : (Json.int (.negSucc n)).chars = '-' :: Nat.toDigits 10 (n + 1) :=
      intChars_negSucc n
    rw [hchars] at hfuel ⊢
    cases fuel with
    | zero => cases hfuel
    | succ fuel =>
      rw [List.cons_append, scanValue, skipBlank_cons rfl]
      have hnumber := scanNumber_toDigits true (n + 1) hrest
      rw [toTree_numeral_neg (Nat.succ_ne_zero n) h] at hnumber
      exact hnumber

theorem int {n : Int} (hmin : minInt ≤ n) (hmax : n ≤ maxNat) : ReadsBack (.int n) := by
  cases n with
  | ofNat n => exact natural (Int.ofNat_le.1 hmax)
  | negSucc n =>
    refine negative ?_
    simp only [minInt] at hmin
    omega

end ReadsBack

/-! ## Lists -/

/-- The items of a list behind the first one. -/
def moreItems (items : List Json) : List Char := items.flatMap fun j => ',' :: j.chars

theorem itemChars_cons (j : Json) (items : List Json) :
    itemChars (j :: items) = j.chars ++ moreItems items := by
  induction items generalizing j with
  | nil => exact (List.append_nil _).symm
  | cons k items ih =>
    rw [itemChars, ih]
    · rfl
    · exact List.cons_ne_nil _ _

theorem separated_moreItems (items : List Json) (rest : List Char) :
    Separated (moreItems items ++ ']' :: rest) := by
  cases items with
  | nil => exact fun c hc => .inr (.inl (Option.some_inj.1 hc).symm)
  | cons j items => exact fun c hc => .inl (Option.some_inj.1 hc).symm

theorem scanItems_close (fuel : Nat) (trees : List Tree) (rest : List Char) :
    scanItems (fuel + 1) trees (']' :: rest) = (.list trees.reverse none, some rest) := rfl

namespace ReadsBack

theorem scanItems_first {j : Json} (h : j.ReadsBack) {fuel : Nat} {rest : List Char}
    (hfuel : j.chars.length ≤ fuel) (hrest : Separated rest) :
    scanItems (fuel + 1) [] (j.chars ++ rest) = scanItems fuel [j.toTree] rest := by
  have hscan := h.scan hfuel hrest
  obtain ⟨c, cs, hchars, hblank, hbracket⟩ := h.starts
  rw [hchars, List.cons_append] at hscan ⊢
  rw [scanItems, skipBlank_cons hblank]
  split
  · rename_i heq
    cases heq
  · rename_i heq
    cases heq
    exact absurd rfl hbracket
  · rename_i heq
    cases heq
    simp only [List.isEmpty_nil, if_true, hscan]

theorem scanItems_next {j : Json} (h : j.ReadsBack) {fuel : Nat} {rest : List Char}
    (hfuel : j.chars.length ≤ fuel) (hrest : Separated rest) (tree : Tree) (trees : List Tree) :
    scanItems (fuel + 1) (tree :: trees) (',' :: (j.chars ++ rest)) =
      scanItems fuel (j.toTree :: tree :: trees) rest := by
  have hscan := h.scan hfuel hrest
  have hskip := h.skipBlank rest
  obtain ⟨c, cs, hchars, hblank, hbracket⟩ := h.starts
  rw [hchars, List.cons_append] at hscan hskip ⊢
  rw [scanItems, skipBlank_cons rfl]
  split
  · rename_i heq
    cases heq
  · rename_i heq
    cases heq
  · rename_i heq
    cases heq
    simp only [List.isEmpty_cons, Bool.false_eq_true, if_false, if_true, hskip]
    split
    · rename_i heq
      cases heq
      exact absurd rfl hbracket
    · simp only [hscan]

theorem scanItems_more {items : List Json} (h : ∀ j ∈ items, j.ReadsBack) {fuel : Nat}
    {rest : List Char} (hfuel : (moreItems items).length < fuel) (tree : Tree) (trees : List Tree) :
    scanItems fuel (tree :: trees) (moreItems items ++ ']' :: rest) =
      (.list ((tree :: trees).reverse ++ itemTrees items) none, some rest) := by
  induction items generalizing fuel tree trees with
  | nil =>
    obtain ⟨fuel, rfl⟩ := Nat.exists_eq_succ_of_ne_zero (Nat.ne_zero_of_lt hfuel)
    exact (scanItems_close ..).trans (by rw [itemTrees, List.append_nil])
  | cons j items ih =>
    have htext : moreItems (j :: items) ++ ']' :: rest =
        ',' :: (j.chars ++ (moreItems items ++ ']' :: rest)) := by
      simp [moreItems]
    have hlength : (moreItems (j :: items)).length =
        j.chars.length + (moreItems items).length + 1 := by
      simp [moreItems]
    rw [hlength] at hfuel
    obtain ⟨fuel, rfl⟩ := Nat.exists_eq_succ_of_ne_zero (Nat.ne_zero_of_lt hfuel)
    rw [htext, (h j (List.mem_cons_self ..)).scanItems_next (by omega)
      (separated_moreItems items rest), ih (fun k hk => h k (List.mem_cons_of_mem _ hk)) (by omega)]
    simp [itemTrees]

theorem arr {items : List Json} (h : ∀ j ∈ items, j.ReadsBack) : ReadsBack (.arr items) where
  starts := ⟨'[', _, rfl, rfl, by decide⟩
  scan fuel rest hfuel hrest := by
    have htext : (Json.arr items).chars ++ rest = '[' :: (itemChars items ++ ']' :: rest) := by
      simp [chars]
    have hlength : (Json.arr items).chars.length = (itemChars items).length + 2 := by
      simp [chars]
    rw [hlength] at hfuel
    obtain ⟨fuel, rfl⟩ : ∃ k, fuel = k + 2 := ⟨fuel - 2, by omega⟩
    rw [htext, scanValue, skipBlank_cons rfl]
    cases items with
    | nil => rfl
    | cons j items =>
      have hj := h j (List.mem_cons_self ..)
      have hpos := hj.length_pos
      rw [itemChars_cons, List.length_append] at hfuel
      rw [itemChars_cons, List.append_assoc]
      refine (hj.scanItems_first (by omega) (separated_moreItems items rest)).trans ?_
      exact scanItems_more (fun k hk => h k (List.mem_cons_of_mem _ hk)) (by omega) j.toTree []

end ReadsBack

/-! ## Objects -/

/-- The fields of an object behind the first one. -/
def moreFields (fields : List (String × Json)) : List Char :=
  fields.flatMap fun f => ',' :: (literal f.1 ++ ':' :: f.2.chars)

theorem fieldChars_eq (f : String × Json) (fields : List (String × Json)) :
    fieldChars (f :: fields) = literal f.1 ++ ':' :: (f.2.chars ++ moreFields fields) := by
  induction fields generalizing f with
  | nil => rw [fieldChars_cons, if_pos rfl]; rfl
  | cons g fields ih =>
    rw [fieldChars_cons, if_neg (List.cons_ne_nil _ _), ih]
    simp [moreFields]

theorem separated_moreFields (fields : List (String × Json)) (rest : List Char) :
    Separated (moreFields fields ++ '\x7d' :: rest) := by
  cases fields with
  | nil => exact fun c hc => .inr (.inr (Option.some_inj.1 hc).symm)
  | cons f fields => exact fun c hc => .inl (Option.some_inj.1 hc).symm

namespace ReadsBack

/-- A field, as far as it is read behind its first mark. -/
theorem scanFields_first {name : String} {j : Json} (h : j.ReadsBack) {fuel : Nat}
    {rest : List Char} (hfuel : j.chars.length ≤ fuel) (hrest : Separated rest) :
    scanFields (fuel + 1) [] (literal name ++ ':' :: (j.chars ++ rest)) =
      scanFields fuel [(.ok name, j.toTree)] rest := by
  have htext : literal name ++ ':' :: (j.chars ++ rest) =
      '"' :: (name.toList.flatMap literalChar ++ '"' :: ':' :: (j.chars ++ rest)) := by
    simp [literal]
  rw [htext, scanFields, skipBlank_cons rfl]
  simp only [List.isEmpty_nil, if_true, scanText_name, skipBlank_cons (c := ':') rfl,
    h.scan hfuel hrest]

theorem scanFields_next {name : String} {j : Json} (h : j.ReadsBack) {fuel : Nat}
    {rest : List Char} (hfuel : j.chars.length ≤ fuel) (hrest : Separated rest)
    (f : Except Break String × Tree) (fields : List (Except Break String × Tree)) :
    scanFields (fuel + 1) (f :: fields) (',' :: (literal name ++ ':' :: (j.chars ++ rest))) =
      scanFields fuel ((.ok name, j.toTree) :: f :: fields) rest := by
  have htext : literal name ++ ':' :: (j.chars ++ rest) =
      '"' :: (name.toList.flatMap literalChar ++ '"' :: ':' :: (j.chars ++ rest)) := by
    simp [literal]
  rw [htext, scanFields, skipBlank_cons rfl]
  simp only [List.isEmpty_cons, Bool.false_eq_true, if_false, skipBlank_cons (c := '"') rfl,
    scanText_name, skipBlank_cons (c := ':') rfl, h.scan hfuel hrest]

theorem scanFields_more {fields : List (String × Json)} (h : ∀ f ∈ fields, f.2.ReadsBack)
    {fuel : Nat} {rest : List Char} (hfuel : (moreFields fields).length < fuel)
    (t : Except Break String × Tree) (trees : List (Except Break String × Tree)) :
    scanFields fuel (t :: trees) (moreFields fields ++ '\x7d' :: rest) =
      (.record ((t :: trees).reverse ++ fieldTrees fields) none, some rest) := by
  induction fields generalizing fuel t trees with
  | nil =>
    obtain ⟨fuel, rfl⟩ := Nat.exists_eq_succ_of_ne_zero (Nat.ne_zero_of_lt hfuel)
    rw [fieldTrees, List.append_nil]
    rfl
  | cons f fields ih =>
    have htext : moreFields (f :: fields) ++ '\x7d' :: rest =
        ',' :: (literal f.1 ++ ':' :: (f.2.chars ++ (moreFields fields ++ '\x7d' :: rest))) := by
      simp [moreFields]
    have hlength : (moreFields (f :: fields)).length =
        (literal f.1).length + f.2.chars.length + (moreFields fields).length + 2 := by
      simp [moreFields]
      omega
    rw [hlength] at hfuel
    obtain ⟨fuel, rfl⟩ := Nat.exists_eq_succ_of_ne_zero (Nat.ne_zero_of_lt hfuel)
    rw [htext, (h f (List.mem_cons_self ..)).scanFields_next (by omega)
      (separated_moreFields fields rest),
      ih (fun g hg => h g (List.mem_cons_of_mem _ hg)) (by omega)]
    simp [fieldTrees]

theorem obj {fields : List (String × Json)} (h : ∀ f ∈ fields, f.2.ReadsBack) :
    ReadsBack (.obj fields) where
  starts := ⟨'\x7b', _, rfl, rfl, by decide⟩
  scan fuel rest hfuel hrest := by
    have htext : (Json.obj fields).chars ++ rest =
        '\x7b' :: (fieldChars fields ++ '\x7d' :: rest) := by
      simp [chars]
    have hlength : (Json.obj fields).chars.length = (fieldChars fields).length + 2 := by
      simp [chars]
    rw [hlength] at hfuel
    obtain ⟨fuel, rfl⟩ : ∃ k, fuel = k + 2 := ⟨fuel - 2, by omega⟩
    rw [htext, scanValue, skipBlank_cons rfl]
    cases fields with
    | nil => rfl
    | cons f fields =>
      have hf := h f (List.mem_cons_self ..)
      rw [fieldChars_eq, List.length_append, List.length_cons, List.length_append] at hfuel
      rw [fieldChars_eq, List.append_assoc, List.cons_append, List.append_assoc]
      refine (hf.scanFields_first (by omega) (separated_moreFields fields rest)).trans ?_
      exact scanFields_more (fun g hg => h g (List.mem_cons_of_mem _ hg)) (by omega) _ []

end ReadsBack

/-- **A text is read as the tree of the value that it was written for**, and nothing is wrong behind
it. -/
theorem scan_text {j : Json} (h : j.ReadsBack) : scan j.text = (j.toTree, none) := by
  have hlength : j.chars.length ≤ 2 * j.chars.length + 2 := by omega
  have hscan : scanValue _ (j.chars ++ []) = (j.toTree, some []) := h.scan hlength nofun
  rw [List.append_nil] at hscan
  rw [scan, text, String.toList_ofList]
  simp only [hscan]
  rfl

end ScriptHost.Json
