import BeastWebsocketEcho.ConnectionBaseLife
import BeastWebsocketEcho.ConnectionBaseSend
import BeastWebsocketEcho.ExchangeConnectionPing

/-!
# What the exchange client says

The client subscribes for every greeting of the server and sends a ping for every wait that has
expired, and says nothing else. A message is read into an empty buffer, so that it is understood by
itself, whatever was read before it.
-/

namespace BeastWebsocketEcho
namespace ExchangeConnection

open ConnectionBase (submitted written submitted_snoc)

variable {B F : Type*} {text : JsonText B F} {s t : State B F}

def greets (text : JsonText B F) (message : List B) : Bool :=
  ((text.parse message).bind fun j => (j.field "type").bind Json.asString) == some "hello"

/-- What a step owes to the server. -/
def answers (text : JsonText B F) (s : State B F) : Action B → List F
  | .read none message => if greets text message then [text.dump subscription] else []
  | .onTimer i now =>
    match s.derived.timer.take i with
    | some (none,_) => [text.dump (pingFrame now)]
    | _ => []
  | _ => []

theorem frames_onTextFrame (text : JsonText B F) (message : List B) :
    (onTextFrame text message).1 = if greets text message then [text.dump subscription] else [] := by
  unfold onTextFrame
  cases hparse : text.parse message with
  | none => simp [greets,hparse]
  | some j =>
    have hgreets : greets text message = ((j.field "type").bind Json.asString == some "hello") := by
      simp [greets,hparse]
    dsimp only
    split
    · next htype => simp [hgreets,htype]
    · next type htype =>
      by_cases hhello : type = "hello"
      · simp [hgreets,htype,hhello]
      · rw [hgreets,htype,if_neg hhello]
        split
        · split <;> simp [hhello]
        · simp [hhello]

section Submitted

variable {D : Type*} {v : ConnectionBase.Virtual B F D} (b : ConnectionBase.State B F D)

theorem submitted_initiateSend : submitted b.initiateSend.log = submitted b.log := by
  cases hqueue : b.txQueue with
  | nil => simp [ConnectionBase.State.initiateSend,ConnectionBase.State.emit,hqueue,submitted,
      ConnectionBase.Event.submitted?]
  | cons frame frames =>
    simp [ConnectionBase.State.initiateSend,ConnectionBase.State.emit,hqueue,submitted,ConnectionBase.Event.submitted?]

theorem submitted_notifySend (frame : F) : submitted (b.notifySend frame).log = submitted b.log ++ [frame] := by
  have hsubmitted : submitted (b.log ++ [ConnectionBase.Event.submitted frame]) = submitted b.log ++ [frame] := by
    rw [submitted_snoc]
    rfl
  simp only [ConnectionBase.State.notifySend]
  split
  · rw [submitted_initiateSend]
    exact hsubmitted
  · exact hsubmitted

theorem submitted_notifyAll (frames : List F) : submitted (b.notifyAll frames).log = submitted b.log ++ frames := by
  induction frames generalizing b with
  | nil => exact (List.append_nil _).symm
  | cons frame frames ih =>
    have hrest := ih (b.notifySend frame)
    rw [submitted_notifySend,List.append_assoc] at hrest
    exact hrest

theorem submitted_emit {e : ConnectionBase.Event F} (he : e.submitted? = none) :
    submitted (b.emit e).log = submitted b.log := by
  rw [ConnectionBase.State.emit,submitted_snoc,he]
  exact List.append_nil _

end Submitted

theorem submitted_fail (s : State B F) (ec : Error) : submitted (s.fail (overrides text) ec).log = submitted s.log := by
  have htold : submitted (({ s with derived := s.derived.stop } : State B F).emit (.error ec)).log = submitted s.log :=
    submitted_emit _ rfl
  exact (submitted_notifyAll _ []).trans ((List.append_nil _).trans htold)

theorem submitted_handleConnect (s : State B F) (ec : ErrorCode) :
    submitted (s.handleConnect (overrides text) ec).log = submitted s.log := by
  cases ec with
  | some e => exact submitted_fail s e
  | none =>
    have hup : submitted ((({ s with derived := s.derived.start } : State B F).emit .transportUp).notifyAll []).log =
        submitted s.log := submitted_emit _ rfl
    simp only [ConnectionBase.State.handleConnect,ConnectionBase.State.enterReadState]
    rw [submitted_emit _ rfl]
    exact hup

theorem submitted_onRead (s : State B F) (ec : ErrorCode) : submitted (s.onRead (overrides text) ec).log =
    submitted s.log ++ if ec.isNone then (onTextFrame text s.buffer).1 else [] := by
  cases ec with
  | some e => exact (submitted_fail s e).trans (List.append_nil _).symm
  | none =>
    have hframes : submitted ((s.emit .textFrame).notifyAll (onTextFrame text s.buffer).1).log =
        submitted s.log ++ (onTextFrame text s.buffer).1 := by
      rw [submitted_notifyAll,submitted_emit _ rfl]
    simp only [ConnectionBase.State.onRead]
    split
    · rw [ConnectionBase.State.enterReadState,submitted_emit _ rfl]
      exact hframes
    · rw [ConnectionBase.onError_eq_fail,submitted_fail,submitted_fail]
      exact hframes
    · rw [ConnectionBase.onError_eq_fail,submitted_fail,submitted_fail]
      exact hframes

theorem submitted_onWrite (s : State B F) (ec : ErrorCode) :
    submitted (s.onWrite (overrides text) ec).log = submitted s.log := by
  have hended (holds : Bool) : submitted (s.log ++ [ConnectionBase.Event.asserted .writeNonEmpty holds]) =
      submitted s.log := by
    rw [submitted_snoc]
    exact List.append_nil _
  cases ec with
  | some e => exact (submitted_fail _ e).trans (hended _)
  | none =>
    simp only [ConnectionBase.State.onWrite]
    split
    · rw [submitted_initiateSend]
      exact hended _
    · exact hended _

/-- A step says what it owes, and nothing else. -/
theorem submitted_step {a : Action B} (hr : (machine text).Reachable s) (h : step text s a = some t) :
    submitted t.log = submitted s.log ++ answers text s a := by
  cases a with
  | connected ec =>
    obtain ⟨-,hok⟩ := Option.ite_none_right_eq_some.mp h
    obtain rfl := Option.some.inj hok
    exact ((submitted_handleConnect _ ec).trans (submitted_emit _ rfl)).trans (List.append_nil _).symm
  | read ec bytes =>
    obtain ⟨hgo,hok⟩ := Option.ite_none_right_eq_some.mp h
    obtain rfl := Option.some.inj hok
    -- The message stands alone in the buffer.
    have hempty := ((ConnectionBase.reachable_life (base_reachable hr)).phase.of_reads hgo).2.1
    rw [submitted_onRead,submitted_emit _ rfl]
    cases ec with
    | some e => rfl
    | none => simp [answers,ConnectionBase.State.emit,hempty,frames_onTextFrame]
  | wrote ec =>
    cases hw : s.writes with
    | nil => simp [step,ConnectionBase.step,hw] at h
    | cons frame writes =>
      simp only [step,ConnectionBase.step,hw,Option.some.injEq] at h
      subst h
      exact ((submitted_onWrite _ ec).trans (submitted_emit _ rfl)).trans (List.append_nil _).symm
  | closed ec =>
    obtain ⟨-,hok⟩ := Option.ite_none_right_eq_some.mp h
    obtain rfl := Option.some.inj hok
    cases ec with
    | some e => exact ((submitted_fail _ e).trans (submitted_emit _ rfl)).trans (List.append_nil _).symm
    | none => exact (submitted_emit _ rfl).trans (List.append_nil _).symm
  | stop =>
    obtain rfl := Option.some.inj h
    unfold ConnectionBase.State.stop
    split
    · exact (submitted_emit _ rfl).trans (List.append_nil _).symm
    · exact (List.append_nil _).symm
  | timerEnds i =>
    obtain ⟨timer,-,rfl⟩ := Option.map_eq_some_iff.mp h
    exact (List.append_nil _).symm
  | onTimer i now =>
    obtain ⟨⟨ec,timer⟩,htake,rfl⟩ := Option.map_eq_some_iff.mp h
    cases ec with
    | some e => simpa [answers,htake,pingOnTimer] using submitted_fail _ e
    | none => simpa [answers,htake,pingOnTimer] using submitted_notifySend _ _

/-- What was submitted and not yet given to a write. -/
def unwritten (s : State B F) : List F := if s.sendState = .sendSending then s.txQueue.tail else s.txQueue

theorem submitted_eq_written (h : (machine text).Reachable s) : submitted s.log = written s.log ++ unwritten s := by
  obtain ⟨⟨o,ho⟩,-⟩ := ConnectionBase.sending_of_reachable (base_reachable h)
  rw [← ho.submitted,← ho.started,unwritten]
  unfold Outbox.submitted Outbox.started
  rw [List.append_assoc,ho.queue]
  by_cases hbusy : o.busy = true
  · have hne : s.txQueue ≠ [] := by
      rw [← ho.queue]
      exact o.front hbusy
    obtain ⟨frame,frames,hqueue⟩ := List.exists_cons_of_ne_nil hne
    simp [hbusy,ho.busy.mp hbusy,hqueue]
  · have hidle : s.sendState ≠ .sendSending := fun hsending => hbusy (ho.busy.mpr hsending)
    simp [hbusy,hidle]

/-- In every run, what the client owed for the messages it read and the waits that expired was written or waits to be
written, once each and in order, and it says nothing else. -/
theorem answers_in_order {as : List (Action B)} (h : (machine text).Exec init as t) :
    (machine text).collect (answers text) init as = written t.log ++ unwritten t := by
  have hreach : (machine text).Reachable (init : State B F) := Machine.Reachable.init rfl
  have hsubmitted : submitted t.log =
      submitted (init : State B F).log ++ (machine text).collect (answers text) init as :=
    h.collect_eq (I := (machine text).Reachable) (g := fun s => submitted s.log) (fun s a t hs ha => hs.step ha)
      (fun s a t hs ha => submitted_step hs ha) hreach
  rw [← submitted_eq_written (hreach.exec h),hsubmitted]
  rfl

def helloBytes : List Char := "\x7b\"type\":\"hello\"\x7d".toList

/-- A library that reads greetings, and writes the subscription and the ping of the time 0. -/
def helloText : JsonText Char String where
  parse := fun message => if message = helloBytes then some (.object [("type",.string "hello")]) else none
  dump := fun j =>
    match (j.field "cmd").bind Json.asString with
    | some "sub" => "\x7b\"args\":[\"ticker.btcusd_p\"],\"cmd\":\"sub\",\"id\":\"random_id.me.hk\"\x7d"
    | _ => "\x7b\"args\":[0],\"cmd\":\"ping\",\"id\":\"random_id.me.hk\"\x7d"

def greeted : List (Action Char) :=
  [.connected none,.read none helloBytes,.timerEnds 0,.onTimer 0 0]

theorem answers_in_order_greeted : ∃ t, (machine helloText).Exec init greeted t ∧
    written t.log = [helloText.dump subscription] ∧ unwritten t = [helloText.dump (pingFrame 0)] ∧
    (machine helloText).collect (answers helloText) init greeted = written t.log ++ unwritten t := by
  have hrun : (machine helloText).replay init greeted = some _ := rfl
  have hexec := Machine.Exec.of_replay hrun
  exact ⟨_,hexec,rfl,rfl,answers_in_order hexec⟩

end ExchangeConnection
end BeastWebsocketEcho
