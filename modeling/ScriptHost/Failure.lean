/-!
# Failures

What can go wrong when a script uses a capability.  A failure of a collaborator keeps what that
collaborator said, if it said anything that is part of the answer; the five kinds have stable names.
-/

set_option autoImplicit false

namespace ScriptHost

/-! ## Input and output -/

/-- What went wrong with an input or output. -/
inductive IoKind where
  | timedOut
  | wouldBlock
  | interrupted
  | unexpectedEof
  | brokenPipe
  | connectionReset
  | notFound
  | permissionDenied
  | writeZero
  | other
deriving DecidableEq, Repr

namespace IoKind

/-- All kinds. -/
def all : List IoKind :=
  [timedOut, wouldBlock, interrupted, unexpectedEof, brokenPipe, connectionReset, notFound,
    permissionDenied, writeZero, other]

/-- The name of a kind. -/
def name : IoKind → String
  | timedOut => "TimedOut"
  | wouldBlock => "WouldBlock"
  | interrupted => "Interrupted"
  | unexpectedEof => "UnexpectedEof"
  | brokenPipe => "BrokenPipe"
  | connectionReset => "ConnectionReset"
  | notFound => "NotFound"
  | permissionDenied => "PermissionDenied"
  | writeZero => "WriteZero"
  | other => "Other"

/-- The kind with a name. -/
def named? (name : String) : Option IoKind := all.find? (·.name = name)

/-- What is said of an error that has no text of its own. -/
def description : IoKind → String
  | timedOut => "timed out"
  | wouldBlock => "operation would block"
  | interrupted => "operation interrupted"
  | unexpectedEof => "unexpected end of file"
  | brokenPipe => "broken pipe"
  | connectionReset => "connection reset"
  | notFound => "entity not found"
  | permissionDenied => "permission denied"
  | writeZero => "write zero"
  | other => "other error"

/-- The two kinds that mean "not yet" instead of "no". -/
def isDelay (k : IoKind) : Bool := k = timedOut || k = wouldBlock

end IoKind

/-- An error of reading or writing. -/
structure IoFault where
  kind : IoKind
  message : String
deriving DecidableEq, Repr

/-- A fault of a kind that says nothing else. -/
def IoKind.fault (k : IoKind) : IoFault := ⟨k, k.description⟩

/-! ## Failures of capabilities -/

/-- What an external collaborator said. -/
inductive Cause where
  | stated (text : String)
  | unstated
deriving DecidableEq, Repr

/-- Why an operation fails. -/
inductive Failure where
  | timeout (operation : String)
  | illegalState (message : String)
  | unsupportedIsolation (level : String)
  | exhausted (message : String)
  | external (context : String) (cause : Cause)
deriving DecidableEq, Repr, Inhabited

/-- What callers tell failures apart by. -/
inductive FailureKind where
  | timeout
  | illegalState
  | unsupportedIsolation
  | exhausted
  | external
deriving DecidableEq, Repr

/-- The name of a kind in answers. -/
def FailureKind.name : FailureKind → String
  | timeout => "timeout"
  | illegalState => "illegal_state"
  | unsupportedIsolation => "unsupported_isolation"
  | exhausted => "resource_exhausted"
  | external => "upstream"

namespace Failure

/-- The kind of a failure. -/
def kind : Failure → FailureKind
  | timeout _ => .timeout
  | illegalState _ => .illegalState
  | unsupportedIsolation _ => .unsupportedIsolation
  | exhausted _ => .exhausted
  | external _ _ => .external

/-- Whether time has run out. -/
def isTimeout (f : Failure) : Bool := f.kind = .timeout

/-- The text of a failure; none when only the collaborator knows it. -/
def message? : Failure → Option String
  | timeout operation => some ("timed out waiting to " ++ operation)
  | illegalState message => some ("illegal state: " ++ message)
  | unsupportedIsolation level => some ("unsupported isolation level: " ++ level)
  | exhausted message => some ("resource exhausted: " ++ message)
  | external context (.stated text) => some (context ++ ": " ++ text)
  | external _ .unstated => none

/-- A delay that outlives a call is a timeout, any other error of the transport is the
collaborator's. -/
def ofIo (e : IoFault) : Failure :=
  if e.kind.isDelay then timeout "complete i/o" else external "i/o failure" (.stated e.message)

/-- An error of the transport in a known context. -/
def ofIoIn (context : String) (e : IoFault) : Failure := external context (.stated e.message)

end Failure

/-- What an operation gives: a value or a failure. -/
abbrev Outcome (α : Type) := Except Failure α

namespace Outcome

variable {α β : Type} {r : Outcome α} {next : α → Outcome β}

/-- Two steps succeed if both do. -/
theorem bind_eq_ok_iff {b : β} : r >>= next = .ok b ↔ ∃ a, r = .ok a ∧ next a = .ok b := by
  constructor
  · intro h
    cases r with
    | error e => cases h
    | ok a => exact ⟨a, rfl, h⟩
  · rintro ⟨a, rfl, h⟩
    exact h

/-- Two steps fail if one of them does, and the first one before the second. -/
theorem bind_eq_error_iff {e : Failure} :
    r >>= next = .error e ↔ r = .error e ∨ ∃ a, r = .ok a ∧ next a = .error e := by
  constructor
  · intro h
    cases r with
    | error e' =>
      cases h
      exact .inl rfl
    | ok a => exact .inr ⟨a, rfl, h⟩
  · rintro (rfl | ⟨a, rfl, h⟩)
    · rfl
    · exact h

theorem isOk_iff : r.isOk = true ↔ ∃ a, r = .ok a := by
  cases r <;> simp [Except.isOk, Except.toBool]

end Outcome

end ScriptHost
