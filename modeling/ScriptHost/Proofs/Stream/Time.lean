import ScriptHost.Proofs.Stream.Moves
import ScriptHost.Proofs.WebSocket.RoundTrip

/-!
# Time goes on while requests are handled

Whatever is done to a request, its clock only goes on, and it has one token from first to last.  So
a request that has been cancelled is cancelled for all that comes afterwards.

* `Exchange.Onward` — a change of a request after which its clock has gone on and its token is what
  it was.
* `Request.onward_act`, `Act.onward_finishResponse` — every call makes such a change, and so does
  the end of a response.
-/

set_option autoImplicit false

namespace ScriptHost

/-! ## Wires and WebSockets -/

theorem Wire.passes_receive (w : Wire) (d : Deadline) (operation : String) (size : Nat) :
    w.clock.Passes (w.receive d operation size).2.clock := by
  rcases Nat.eq_zero_or_pos size with rfl | hsize
  · rw [receive]
    split <;> exact .refl _
  · exact (receive_spec hsize rfl).took.passes

namespace WebSocket

/-- All that such a call does to the clock is to let time pass. -/
def Call.TakesTime {α : Type} (call : Call α) : Prop :=
  ∀ (s : WebSocket) (w : Wire), w.clock.Passes (call (s, w)).2.2.clock

theorem takesTime_read (d : Deadline) : (read d).TakesTime := by
  intro s w
  rw [read_eq]
  split
  · exact .refl _
  · exact passes_readLoop ..

theorem takesTime_send (m : Message) : (send m).TakesTime := by
  intro s w
  rw [send, Call.bind_apply]
  simp only [getSocket]
  split
  · exact .refl _
  · exact w.passes_send ..

theorem takesTime_close : close.TakesTime := by
  intro s w
  rw [close, Call.bind_apply]
  simp only [getSocket]
  split
  · exact .refl _
  · exact w.passes_send ..

end WebSocket

/-! ## Requests -/

/-- A change of a request that takes nothing back. -/
structure Exchange.Onward (x x' : Exchange) : Prop where
  clock : x.wire.clock.Precedes x'.wire.clock
  token : x'.context.token = x.context.token

namespace Exchange.Onward

instance : Std.Refl Onward where
  refl _ := ⟨.refl _, rfl⟩

instance : IsTrans Exchange Onward where
  trans _ _ _ h h' := ⟨h.clock.trans h'.clock, h'.token.trans h.token⟩

end Exchange.Onward

namespace Exchange

theorem Moves.onward {x x' : Exchange} (h : x.Moves x') : x.Onward x' := by
  cases h with
  | notes c s htoken hdeadline => exact ⟨.refl _, htoken⟩
  | restarts ms => exact ⟨.refl _, rfl⟩
  | reads operation size => exact ⟨(x.wire.passes_receive ..).precedes, rfl⟩
  | writes operation data => exact ⟨(x.wire.passes_send ..).precedes, rfl⟩
  | cancels => exact ⟨x.wire.clock.precedes_cancel x.context.token, rfl⟩

theorem Goes.onward {x x' : Exchange} (h : x.Goes x') : x.Onward x' := by
  induction h with
  | refl => exact refl_of Onward x
  | tail _ hmove ih => exact trans_of Onward ih hmove.onward

end Exchange

namespace Act

open Exchange

variable {α : Type}

theorem onward_socket {call : WebSocket.Call α} (hcall : call.TakesTime) :
    Keeps Onward (Act.socket call) := by
  intro x
  rw [Act.socket]
  split
  · exact refl_of Onward x
  · rename_i s hs
    exact ⟨(hcall s x.wire).precedes, rfl⟩

theorem onward_abort : Keeps Onward abort := fun x => (goes_abort x).onward

/-- **The end of a response** takes nothing back. -/
theorem onward_finishResponse (clientCancelled : Bool) (r : Outcome Value) :
    Keeps Onward (finishResponse clientCancelled r) := fun x =>
  (goes_finishResponse clientCancelled r x).onward

end Act

namespace Request

open Act Exchange

/-- **Every call** takes nothing back. -/
theorem onward_act (c : Call) : Keeps Onward (act c) := by
  cases hc : c.isOnSocket with
  | false => exact fun x => (goes_act hc x).onward
  | true =>
    exact keeps_onSocket hc (fun d => onward_socket (WebSocket.takesTime_read d))
      (fun m => onward_socket (WebSocket.takesTime_send m))
      (onward_socket WebSocket.takesTime_close)
      (onward_socket fun _ _ => .refl _) fun _ => onward_socket fun _ _ => .refl _

end Request

end ScriptHost
