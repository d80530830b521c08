import BeastWebsocketEcho.WssTransportRuns

/-!
# Frames after the transport has failed

`on_transport_error` gives the derived class a chance to clean up. `handle_read` does not
look at the state: a read that ends well after a write has failed still hands its frame on.
-/

namespace BeastWebsocketEcho
namespace WssTransport

variable {B X : Type*} {s t : State B X}

open State

def Event.textFrame? : Event B X → Option (List B)
  | .textFrame frame => some frame
  | _ => none

/-- The log grows by events that hand no frame on. -/
abbrev Silent (log log' : List (Event B X)) : Prop := Grows (fun e => e.textFrame? = none) log log'

namespace Silent

theorem emit (s : State B X) {e : Event B X} (he : e.textFrame? = none) : Silent s.log (s.emit e).log :=
  (Grows.refl s.log).snoc he

theorem initiateConnect (s : State B X) : Silent s.log s.initiateConnect.log := by
  unfold State.initiateConnect
  split
  · exact emit _ rfl
  all_goals rfl

theorem startSending (s : State B X) : Silent s.log s.startSending.log := by
  unfold State.startSending
  split
  · split
    · exact emit _ rfl
    · rfl
  · rfl

theorem call (s : State B X) (c : Call B) : Silent s.log (s.call c).log := by
  cases c with
  | initiateConnect => exact initiateConnect s
  | sendTextFrame frame =>
    simp only [State.call,State.sendTextFrame]
    split
    · rfl
    · have htaken : Silent s.log ({ s with sendQueue := s.sendQueue ++ [frame] }.emit (.accepted frame)).log :=
        emit _ rfl
      exact htaken.trans (startSending _)

theorem calls (s : State B X) (cs : List (Call B)) : Silent s.log (s.calls cs).log := by
  induction cs generalizing s with
  | nil => rfl
  | cons c cs ih => exact (call s c).trans (ih (s.call c))

theorem startReading (s : State B X) : Silent s.log s.startReading.log := by
  unfold State.startReading
  split
  · rfl
  · exact emit _ rfl

theorem start (s : State B X) (onStart : List (Call B)) : Silent s.log (s.start onStart).log := by
  unfold State.start
  split
  · exact calls s onStart
  all_goals exact emit s rfl

theorem eventTransportUp (s : State B X) (d : Derived B X) : Silent s.log (s.eventTransportUp d).log := by
  have htold : Silent s.log ({ s with state := .connected }.emit .transportUp).log := emit _ rfl
  exact ((htold.trans (calls _ _)).trans (startSending _)).trans (startReading _)

theorem eventTransportError (s : State B X) (d : Derived B X) (ep : ExceptionPtr X) :
    Silent s.log (s.eventTransportError d ep).log := by
  have htold : Silent s.log ({ s with state := .finished }.emit (.transportError ep)).log := emit _ rfl
  unfold State.eventTransportError
  split
  · exact htold.trans (calls _ _)
  · exact htold.trans (calls _ _)
  · exact htold.trans (calls _ _)
  · rfl
  · rfl

theorem handleConnect (s : State B X) (d : Derived B X) (ec : ErrorCode) : Silent s.log (s.handleConnect d ec).log := by
  cases ec with
  | some e => exact eventTransportError s d _
  | none => exact eventTransportUp s d

theorem handleSend (s : State B X) (d : Derived B X) (ec : ErrorCode) : Silent s.log (s.handleSend d ec).log := by
  have hpop : Silent s.log ({ s with sendState := .notSending }.popFront).log := emit _ rfl
  cases ec with
  | some e => exact hpop.trans (eventTransportError _ d _)
  | none => exact hpop.trans (startSending _)

theorem handleRead (s : State B X) (d : Derived B X) (text : Bool) (n : ℕ) :
    Silent (s.deliver d text n).log (s.handleRead d text none n).log := by
  simp only [State.handleRead]
  split
  · exact eventTransportError _ d _
  · exact startReading { s.deliver d text n with rxBuffer := (s.deliver d text n).rxBuffer.drop n }

end Silent

end WssTransport
end BeastWebsocketEcho
