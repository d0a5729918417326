/-!
# Blank characters

The characters with the Unicode property `White_Space`, and what cutting and trimming at them means.
-/

set_option autoImplicit false

namespace ScriptHost.Text

/-- Whether a character is white space. -/
def isBlank (c : Char) : Bool :=
  let n := c.toNat
  (0x9 ≤ n && n ≤ 0xd) || n == 0x20 || n == 0x85 || n == 0xa0 || n == 0x1680 ||
    (0x2000 ≤ n && n ≤ 0x200a) || n == 0x2028 || n == 0x2029 || n == 0x202f || n == 0x205f ||
    n == 0x3000

/-- The text without the blanks at its two ends. -/
def trimList (cs : List Char) : List Char :=
  ((cs.dropWhile isBlank).reverse.dropWhile isBlank).reverse

/-- The text without the blanks at its two ends. -/
def trim (s : String) : String := String.ofList (trimList s.toList)

/-- Cuts a list at each element that satisfies `p`, which is left out. -/
def cut {α : Type} (p : α → Bool) : List α → List (List α)
  | [] => [[]]
  | a :: rest =>
    if p a then [] :: cut p rest
    else
      match cut p rest with
      | [] => [[a]]
      | first :: others => (a :: first) :: others

/-- The pieces between blanks, empty ones left out. -/
def words (cs : List Char) : List (List Char) :=
  (cut isBlank cs).filter (· ≠ [])

/-- What stands before and behind the first element that satisfies `p`. -/
def splitFirst {α : Type} (p : α → Bool) : List α → Option (List α × List α)
  | [] => none
  | a :: rest =>
    if p a then some ([], rest)
    else (splitFirst p rest).map fun (before, behind) => (a :: before, behind)

theorem length_behind_lt {α : Type} (p : α → Bool) {as before behind : List α}
    (h : splitFirst p as = some (before, behind)) : behind.length < as.length := by
  induction as generalizing before behind with
  | nil => simp [splitFirst] at h
  | cons a rest ih =>
    rw [splitFirst] at h
    split at h
    · simp_all
    · simp only [Option.map_eq_some_iff, Prod.mk.injEq, Prod.exists] at h
      obtain ⟨before', behind', hr, _, rfl⟩ := h
      exact Nat.lt_succ_of_lt (ih hr)

/-- ASCII letters in lower case. -/
def lower (s : String) : String := s.map Char.toLower

/-- ASCII letters in upper case. -/
def upper (s : String) : String := s.map Char.toUpper

/-- Equality up to the case of ASCII letters. -/
def sameIgnoringCase (a b : String) : Bool := lower a == lower b

end ScriptHost.Text
