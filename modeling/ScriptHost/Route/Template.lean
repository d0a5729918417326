import ScriptHost.Text.Blank
import ScriptHost.Text.Letter
/-!
# Route templates

A template is literal text with holes: `users/{id}/posts`.  A hole reaches from an opening brace to
the next closing brace, and a brace that is never closed is literal.  A path fits a template if it
is what comes out when every hole is filled with something that is not empty and has no slash in it;
of several ways to fill the holes, the one counts that gives each hole, from the left, as much as
possible.
-/

set_option autoImplicit false

namespace ScriptHost

/-- A part of a template as it is written: literal text, or what stands in a hole. -/
inductive RoutePart where
  | text (cs : List Char)
  | hole (inside : List Char)
deriving DecidableEq, Repr

/-- Cuts a template into its parts. -/
def RoutePart.scan (cs : List Char) : List RoutePart :=
  match _opened : Text.splitFirst (· == '\x7b') cs with
  | none => [.text cs]
  | some (before, behind) =>
    match _closed : Text.splitFirst (· == '\x7d') behind with
    | none => [.text cs]
    | some (inside, rest) => .text before :: .hole inside :: scan rest
termination_by cs.length
decreasing_by
  have := Text.length_behind_lt _ _opened
  have := Text.length_behind_lt _ _closed
  omega

/-- The names of holes: a letter or an underscore, then letters, digits, underscores, dots and
brackets. -/
def isHoleName : List Char → Bool
  | [] => false
  | c :: rest => (c = '_' || Text.isLetter c) && rest.all isHoleNameRest
where
  isHoleNameRest (c : Char) : Bool :=
    c = '_' || c = '.' || c = '[' || c = ']' || Text.isLetterOrNumber c

namespace RouteTemplate

/-- The longest beginning of `cs`, of at most `n` characters and not empty, with which `follow`
accepts what stands behind it. -/
def longest {α : Type} (follow : List Char → Option α) (cs : List Char) :
    Nat → Option (List Char × α)
  | 0 => none
  | n + 1 =>
    match follow (cs.drop (n + 1)) with
    | some a => some (cs.take (n + 1), a)
    | none => longest follow cs n

/-- What stands behind the literal text `text`. -/
def behind? : List Char → List Char → Option (List Char)
  | [], cs => some cs
  | _ :: _, [] => none
  | t :: text, c :: cs => if t = c then behind? text cs else none

/-- How a path fills the holes of a template, in order. -/
def fill? : List RoutePart → List Char → Option (List (List Char × List Char))
  | [], [] => some []
  | [], _ :: _ => none
  | .text text :: parts, cs => (behind? text cs).bind (fill? parts)
  | .hole name :: parts, cs =>
    (longest (fill? parts) cs (cs.takeWhile (· ≠ '/')).length).map fun (filling, others) =>
      (name, filling) :: others

/-- What stands in the holes, from the left to the right. -/
def holes : List RoutePart → List (List Char)
  | [] => []
  | .text _ :: parts => holes parts
  | .hole inside :: parts => inside :: holes parts

end RouteTemplate

end ScriptHost
