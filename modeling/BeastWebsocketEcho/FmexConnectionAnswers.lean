import BeastWebsocketEcho.FmexConnectionPing

/-!
# What the websocket client says

A transport takes the frames that its derived class sends while it is connected, and drops the
others. So the client subscribes for every greeting and sends a ping for every wait that has
expired, as long as the transport has not failed; what it says after that is lost.
-/

namespace BeastWebsocketEcho
namespace WssTransport

variable {B X : Type*} {s t : State B X}

def Call.frame? : Call B → Option (List B)
  | .initiateConnect => none
  | .sendTextFrame frame => some frame

def frames (cs : List (Call B)) : List (List B) := cs.filterMap Call.frame?

/-- The frames that a step gives to a transport that takes them. -/
def offers (s : State B X) : Action B X → List (List B)
  | .call c => if s.state = .connected then frames [c] else []
  | .connected none d => frames d.onTransportUp
  | .read none _ true d => if s.state = .connected then frames d.onTextFrame else []
  | _ => []

section Accepted

variable (s : State B X)

theorem accepted_emit {e : Event B X} (he : e.accepted? = none) : accepted (s.emit e).log = accepted s.log := by
  rw [State.emit,accepted_snoc,he]
  exact List.append_nil _

@[simp] theorem accepted_startSending : accepted s.startSending.log = accepted s.log := by
  unfold State.startSending
  split
  · split
    · exact accepted_emit _ rfl
    · rfl
  · rfl

@[simp] theorem accepted_startReading : accepted s.startReading.log = accepted s.log := by
  unfold State.startReading
  split
  · rfl
  · exact accepted_emit _ rfl

theorem connected_call (c : Call B) : (s.call c).state = .connected ↔ s.state = .connected := by
  by_cases hstate : s.state = .notStarted
  · cases c with
    | initiateConnect => simp [State.call,State.initiateConnect,State.emit,hstate]
    | sendTextFrame frame => simp [State.call,State.sendTextFrame,hstate]
  · rw [state_call hstate]

theorem accepted_call (c : Call B) :
    accepted (s.call c).log = accepted s.log ++ if s.state = .connected then frames [c] else [] := by
  cases c with
  | initiateConnect =>
    have hsame : accepted s.initiateConnect.log = accepted s.log := by
      unfold State.initiateConnect
      split
      · exact accepted_emit _ rfl
      all_goals rfl
    have hnone : frames [(Call.initiateConnect : Call B)] = [] := rfl
    rw [hnone,ite_self,List.append_nil]
    exact hsame
  | sendTextFrame frame =>
    have hone : frames [Call.sendTextFrame frame] = [frame] := rfl
    by_cases hstate : s.state = .connected
    · simp [State.call,State.sendTextFrame,State.emit,hstate,hone,Event.accepted?]
    · simp [State.call,State.sendTextFrame,hstate]

theorem accepted_calls (cs : List (Call B)) :
    accepted (s.calls cs).log = accepted s.log ++ if s.state = .connected then frames cs else [] := by
  induction cs generalizing s with
  | nil => simp [State.calls,frames]
  | cons c cs ih =>
    have hrest := ih (s.call c)
    have hcons : frames (c :: cs) = frames [c] ++ frames cs := by
      rw [frames,frames,frames,← List.filterMap_append]
      rfl
    rw [accepted_call,List.append_assoc] at hrest
    refine hrest.trans ?_
    by_cases hstate : s.state = .connected
    · simp [connected_call,hstate,hcons]
    · simp [connected_call,hstate]

/-- A transport that has failed takes no frame. -/
theorem accepted_eventTransportError (d : Derived B X) (ep : ExceptionPtr X) :
    accepted (s.eventTransportError d ep).log = accepted s.log := by
  have htold : accepted (({ s with state := .finished }.emit (.transportError ep)).calls d.onTransportError).log =
      accepted s.log := by
    rw [accepted_calls,accepted_emit _ rfl]
    exact List.append_nil _
  unfold State.eventTransportError
  split
  · exact htold
  · exact htold
  · exact htold
  · rfl
  · rfl

theorem accepted_eventTransportUp (d : Derived B X) :
    accepted (s.eventTransportUp d).log = accepted s.log ++ frames d.onTransportUp := by
  have hup : accepted ({ s with state := .connected }.emit .transportUp).log = accepted s.log := accepted_emit _ rfl
  simp only [State.eventTransportUp,accepted_startReading,accepted_startSending]
  rw [accepted_calls,hup]
  rfl

theorem accepted_handleSend (d : Derived B X) (ec : ErrorCode) : accepted (s.handleSend d ec).log = accepted s.log := by
  have hpop : accepted ({ s with sendState := .notSending }.popFront).log = accepted s.log := accepted_emit _ rfl
  cases ec with
  | some e => exact (accepted_eventTransportError _ d _).trans hpop
  | none => exact (accepted_startSending _).trans hpop

theorem accepted_handleRead (d : Derived B X) (text : Bool) (n : ℕ) : accepted (s.handleRead d text none n).log =
    accepted s.log ++ if text = true ∧ s.state = .connected then frames d.onTextFrame else [] := by
  have hdelivered : accepted (s.deliver d text n).log =
      accepted s.log ++ if text = true ∧ s.state = .connected then frames d.onTextFrame else [] := by
    unfold State.deliver
    cases text with
    | true =>
      rw [if_pos rfl,accepted_calls,accepted_emit _ rfl]
      by_cases hstate : s.state = .connected <;> simp [State.emit,hstate]
    | false => simp
  simp only [State.handleRead]
  split
  · exact (accepted_eventTransportError _ d _).trans hdelivered
  · exact (accepted_startReading _).trans hdelivered

end Accepted

/-- A transport takes what it is offered, and nothing else. -/
theorem accepted_step {a : Action B X} (h : step s a = some t) : accepted t.log = accepted s.log ++ offers s a := by
  cases a with
  | start onStart =>
    obtain rfl := Option.some.inj h
    unfold State.start
    split
    · next hstate =>
      rw [accepted_calls,hstate]
      rfl
    all_goals exact (accepted_emit _ rfl).trans (List.append_nil _).symm
  | call c =>
    obtain rfl := Option.some.inj h
    exact accepted_call s c
  | connected ec d =>
    obtain ⟨-,hok⟩ := Option.ite_none_right_eq_some.mp h
    obtain rfl := Option.some.inj hok
    have hdone : accepted (({ s with connects := s.connects - 1 } : State B X).emit (.connectDone ec)).log =
        accepted s.log :=
      accepted_emit _ rfl
    cases ec with
    | some e => exact ((accepted_eventTransportError _ d _).trans hdone).trans (List.append_nil _).symm
    | none =>
      rw [← hdone]
      exact accepted_eventTransportUp _ d
  | wrote ec d =>
    cases hw : s.writes with
    | nil => simp [step,hw] at h
    | cons frame writes =>
      simp only [step,hw,Option.some.injEq] at h
      subst h
      exact ((accepted_handleSend _ d ec).trans (accepted_emit _ rfl)).trans (List.append_nil _).symm
  | read ec bytes text d =>
    obtain ⟨-,hok⟩ := Option.ite_none_right_eq_some.mp h
    obtain rfl := Option.some.inj hok
    have hdone : accepted (({ s with reads := s.reads - 1, rxBuffer := s.rxBuffer ++ bytes } : State B X).emit
        (.readDone ec)).log = accepted s.log := accepted_emit _ rfl
    cases ec with
    | some e => exact ((accepted_eventTransportError _ d _).trans hdone).trans (List.append_nil _).symm
    | none =>
      rw [accepted_handleRead,hdone]
      cases text <;> simp [offers,State.emit]

/-- What was taken and not yet given to a write. -/
def unwritten (s : State B X) : List (List B) := if s.sendState = .sending then s.sendQueue.tail else s.sendQueue

theorem accepted_eq_written (h : machine.Reachable s) : accepted s.log = written s.log ++ unwritten s := by
  obtain ⟨o,ho⟩ := (sound_of_reachable h).region
  rw [← ho.submitted,← ho.started,unwritten]
  unfold Outbox.submitted Outbox.started
  rw [List.append_assoc,ho.queue]
  by_cases hbusy : o.busy = true
  · have hne : s.sendQueue ≠ [] := by
      rw [← ho.queue]
      exact o.front hbusy
    obtain ⟨frame,frames,hqueue⟩ := List.exists_cons_of_ne_nil hne
    simp [hbusy,ho.busy.mp hbusy,hqueue]
  · have hidle : s.sendState ≠ .sending := fun hsending => hbusy (ho.busy.mpr hsending)
    simp [hbusy,hidle]

/-- As long as the transport has not failed, and while a read is outstanding, the buffer is empty. -/
def Drained (s : State B X) : Prop := s.state ≠ .finished ∨ 0 < s.reads → s.rxBuffer = []

section Buffer

variable (s : State B X)

@[simp] theorem rxBuffer_startSending : s.startSending.rxBuffer = s.rxBuffer := by
  unfold State.startSending
  split
  · split <;> rfl
  · rfl

@[simp] theorem rxBuffer_startReading : s.startReading.rxBuffer = s.rxBuffer := by
  unfold State.startReading
  split <;> rfl

@[simp] theorem rxBuffer_calls (cs : List (Call B)) : (s.calls cs).rxBuffer = s.rxBuffer := by
  have hcall (s : State B X) (c : Call B) : (s.call c).rxBuffer = s.rxBuffer := by
    cases c with
    | initiateConnect =>
      simp only [State.call,State.initiateConnect]
      split <;> rfl
    | sendTextFrame frame =>
      simp only [State.call,State.sendTextFrame]
      split
      · rfl
      · exact rxBuffer_startSending _
  induction cs generalizing s with
  | nil => rfl
  | cons c cs ih => exact (ih (s.call c)).trans (hcall s c)

@[simp] theorem rxBuffer_deliver (d : Derived B X) (text : Bool) (n : ℕ) :
    (s.deliver d text n).rxBuffer = s.rxBuffer := by
  unfold State.deliver
  split
  · exact rxBuffer_calls _ _
  · rfl

@[simp] theorem rxBuffer_eventTransportError (d : Derived B X) (ep : ExceptionPtr X) :
    (s.eventTransportError d ep).rxBuffer = s.rxBuffer := by
  unfold State.eventTransportError
  split
  · exact rxBuffer_calls _ _
  · exact rxBuffer_calls _ _
  · exact rxBuffer_calls _ _
  · rfl
  · rfl

@[simp] theorem reads_eventTransportError (d : Derived B X) (ep : ExceptionPtr X) :
    (s.eventTransportError d ep).reads = s.reads := by
  unfold State.eventTransportError
  split
  · exact reads_calls _ _
  · exact reads_calls _ _
  · exact reads_calls _ _
  · rfl
  · rfl

variable {s}

/-- Once it was started, a transport that is told of an error has failed. -/
theorem finished_eventTransportError (h : s.state ≠ .notStarted) (d : Derived B X) (ep : ExceptionPtr X) :
    (s.eventTransportError d ep).state = .finished := by
  have htold : (({ s with state := .finished }.emit (.transportError ep)).calls d.onTransportError).state = .finished :=
    state_calls (s := { s with state := .finished }.emit (.transportError ep)) (by simp [State.emit]) _
  cases hstate : s.state with
  | notStarted => exact absurd hstate h
  | finished => simp [State.eventTransportError,hstate]
  | _ => simpa only [State.eventTransportError,hstate] using htold

/-- A step that leaves the buffer and the reads alone, and does not revive a transport that has failed. -/
theorem Drained.frame (h : Drained s) (hbuffer : t.rxBuffer = s.rxBuffer) (hreads : t.reads = s.reads)
    (hstate : t.state ≠ .finished → s.state ≠ .finished) : Drained t := by
  intro hbusy
  rw [hbuffer]
  exact h (hbusy.imp hstate fun hpos => hreads ▸ hpos)

end Buffer

theorem drained_startSending (h : Drained s) : Drained s.startSending := by
  refine h.frame (rxBuffer_startSending s) (reads_startSending s) fun hstate => ?_
  rwa [state_startSending] at hstate

theorem drained_calls (h : Drained s) (cs : List (Call B)) : Drained (s.calls cs) := by
  refine h.frame (rxBuffer_calls s cs) (reads_calls s cs) fun hstate hfinished => hstate ?_
  rw [state_calls (by simp [hfinished]),hfinished]

theorem drained_eventTransportError (h : Drained s) (hnew : s.state ≠ .notStarted) (d : Derived B X)
    (ep : ExceptionPtr X) : Drained (s.eventTransportError d ep) := by
  refine h.frame (rxBuffer_eventTransportError s d ep) (reads_eventTransportError s d ep) fun hstate => ?_
  exact absurd (finished_eventTransportError hnew d ep) hstate

/-- The read ends with what it has put into an empty buffer, and leaves the buffer empty unless it fails. -/
theorem drained_read (h : Drained s) (hlife : Lifecycle s) (hgo : 0 < s.reads) (ec : ErrorCode) (bytes : List B)
    (text : Bool) (d : Derived B X) :
    Drained (({ s with reads := s.reads - 1, rxBuffer := s.rxBuffer ++ bytes }.emit (.readDone ec)).handleRead d text ec
      bytes.length) := by
  have hempty := h (Or.inr hgo)
  obtain ⟨u,hu⟩ : ∃ u, u = ({ s with reads := s.reads - 1, rxBuffer := s.rxBuffer ++ bytes } : State B X).emit
    (.readDone ec) := ⟨_,rfl⟩
  have hnew : u.state ≠ .notStarted := by
    intro hstate
    rw [hu] at hstate
    simp [hlife.early (Or.inl hstate)] at hgo
  have hnone : u.reads = 0 := by
    have hone := hlife.reads
    have hless : u.reads = s.reads - 1 := by rw [hu]; rfl
    omega
  have hbuffer : u.rxBuffer = bytes := by simp [hu,State.emit,hempty]
  rw [← hu]
  -- A transport that has failed with this read has none outstanding.
  have hfailed (w : State B X) (hw : w.state ≠ .notStarted) (hreads : w.reads = 0) (ep : ExceptionPtr X) :
      Drained (w.eventTransportError d ep) := by
    rintro (hstate | hpos)
    · exact absurd (finished_eventTransportError hw d ep) hstate
    · rw [reads_eventTransportError,hreads] at hpos
      exact absurd hpos (lt_irrefl 0)
  cases ec with
  | some e => exact hfailed u hnew hnone _
  | none =>
    simp only [State.handleRead]
    split
    · refine hfailed _ ?_ ?_ _
      · rwa [state_deliver hnew]
      · rwa [reads_deliver]
    · intro _
      simp [hbuffer]

theorem drained_step {a : Action B X} (h : Drained s) (hlife : Lifecycle s) (ha : step s a = some t) : Drained t := by
  cases a with
  | start onStart =>
    obtain rfl := Option.some.inj ha
    unfold State.start
    split
    · exact drained_calls h _
    all_goals exact h
  | call c =>
    obtain rfl := Option.some.inj ha
    exact drained_calls h [c]
  | connected ec d =>
    obtain ⟨hgo,hok⟩ := Option.ite_none_right_eq_some.mp ha
    obtain rfl := Option.some.inj hok
    have hconnecting := hlife.connecting hgo
    have hdone : Drained ({ s with connects := s.connects - 1 }.emit (.connectDone ec)) := h
    cases ec with
    | some e => exact drained_eventTransportError hdone (by simp [State.emit,hconnecting]) d _
    | none =>
      intro _
      simpa [State.handleConnect,State.eventTransportUp,State.emit] using h (Or.inl (by simp [hconnecting]))
  | wrote ec d =>
    cases hw : s.writes with
    | nil => simp [step,hw] at ha
    | cons frame writes =>
      simp only [step,hw,Option.some.injEq] at ha
      subst ha
      have hpopped : Drained ({ ({ s with writes := writes } : State B X).emit (.writeDone ec) with
          sendState := .notSending }.popFront) := h
      cases ec with
      | none => exact drained_startSending hpopped
      | some e =>
        by_cases hnew : s.state = .notStarted
        · simpa [State.handleSend,State.eventTransportError,State.popFront,State.emit,hnew] using hpopped
        · exact drained_eventTransportError hpopped hnew d _
  | read ec bytes text d =>
    obtain ⟨hgo,hok⟩ := Option.ite_none_right_eq_some.mp ha
    obtain rfl := Option.some.inj hok
    exact drained_read h hlife hgo ec bytes text d

theorem reachable_drained (h : machine.Reachable s) : Drained s := by
  refine h.invariant_reachable (I := Drained) ?_ ?_
  · rintro _ rfl _
    rfl
  · intro s a t hr hs ha
    exact drained_step hs (sound_of_reachable hr).life ha

end WssTransport

namespace FmexConnection

open WssTransport (accepted written accepted_step offers)

variable {B : Type*} {text : JsonText B (List B)} {s t : State B}

def greets (text : JsonText B (List B)) (message : List B) : Bool :=
  match frameType text message with
  | .ok (_,.string type) => type == "hello"
  | _ => false

/-- What a step owes to the server, and a transport that has not failed takes. -/
def answers (text : JsonText B (List B)) (s : State B) : Action B → List (List B)
  | .read none message true =>
    if s.transport.state = .connected ∧ greets text message = true then [text.dump (tickerRequest "btcusd_p")] else []
  | .onTimer i timestamp =>
    match s.ping.timer.take i with
    | some (none,_) => if s.transport.state = .connected then [text.dump (pingFrame timestamp)] else []
    | _ => []
  | _ => []

theorem frames_onTextFrame (text : JsonText B (List B)) (message : List B) (p : Ping) :
    WssTransport.frames (onTextFrame text message p).2.1 =
      if greets text message then [text.dump (tickerRequest "btcusd_p")] else [] := by
  unfold onTextFrame greets
  cases hframe : frameType text message with
  | error e => rfl
  | ok parsed =>
    obtain ⟨jframe,type⟩ := parsed
    cases type with
    | string type =>
      by_cases hhello : type = "hello"
      · subst hhello
        rfl
      · simp only [if_neg hhello,beq_iff_eq]
        split
        · rfl
        · split
          · split <;> rfl
          · rfl
    | _ => rfl

theorem answers_step {a : Action B} (hr : (machine text).Reachable s) (h : step text s a = some t) :
    accepted t.transport.log = accepted s.transport.log ++ answers text s a := by
  cases a with
  | start =>
    obtain rfl : ⟨s.transport.start [.initiateConnect],s.ping⟩ = t := Option.some.inj h
    exact accepted_step (s := s.transport) (a := .start [.initiateConnect]) rfl
  | connected ec =>
    obtain ⟨transport,htransport,rfl⟩ := Option.map_eq_some_iff.mp h
    refine (accepted_step htransport).trans ?_
    cases ec <;> rfl
  | wrote ec =>
    obtain ⟨transport,htransport,rfl⟩ := Option.map_eq_some_iff.mp h
    exact accepted_step htransport
  | read ec message isText =>
    obtain ⟨transport,htransport,rfl⟩ := Option.map_eq_some_iff.mp h
    refine (accepted_step htransport).trans ?_
    -- The message stands alone in the buffer.
    have hgo := (Option.ite_none_right_eq_some.mp htransport).1
    have hempty := WssTransport.reachable_drained (transport_reachable hr) (Or.inr hgo)
    have hmessage : delivered s message = message := by simp [delivered,hempty]
    cases ec with
    | some e => rfl
    | none =>
      cases isText with
      | false => rfl
      | true =>
        simp only [offers,answers,overrides,hmessage,frames_onTextFrame]
        by_cases hstate : s.transport.state = .connected <;> simp [hstate]
  | timerEnds i =>
    obtain ⟨timer,-,rfl⟩ := Option.map_eq_some_iff.mp h
    exact (List.append_nil _).symm
  | onTimer i timestamp =>
    obtain ⟨⟨ec,timer⟩,htake,rfl⟩ := Option.map_eq_some_iff.mp h
    cases ec with
    | some e => simp [answers,htake,handleTimer]
    | none =>
      have hcall := WssTransport.accepted_call s.transport (.sendTextFrame (text.dump (pingFrame timestamp)))
      simp only [answers,htake]
      exact hcall

/-- In every run, what the client owed for the messages that it read and the waits that expired, up to the failure of
the transport, was written or waits to be written, once each and in order, and it says nothing else. -/
theorem says_what_it_owes {as : List (Action B)} (h : (machine text).Exec init as t) :
    (machine text).collect (answers text) init as =
      written t.transport.log ++ WssTransport.unwritten t.transport := by
  have hreach : (machine text).Reachable (init : State B) := Machine.Reachable.init rfl
  have haccepted : accepted t.transport.log =
      accepted (init : State B).transport.log ++ (machine text).collect (answers text) init as :=
    h.collect_eq (I := (machine text).Reachable) (g := fun s => accepted s.transport.log)
      (fun s a t hs ha => hs.step ha)
      (fun s a t hs ha => answers_step hs ha) hreach
  rw [← WssTransport.accepted_eq_written (transport_reachable (hreach.exec h)),haccepted]
  rfl

def helloBytes : List Char := "\x7b\"type\":\"hello\"\x7d".toList

/-- A library that reads greetings, and writes the request and the ping of the time 0. -/
def helloText : JsonText Char (List Char) where
  parse := fun message => if message = helloBytes then some (.object [("type",.string "hello")]) else none
  dump := fun j =>
    match (j.field "cmd").bind Json.asString with
    | some "sub" => "\x7b\"cmd\":\"sub\",\"id\":\"some_id\",\"args\":[\"ticker.btcusd_p\"]\x7d".toList
    | _ => "\x7b\"cmd\":\"ping\",\"id\":\"my_ping_ident\",\"args\":[0]\x7d".toList

/-- A greeting, the write of the request fails, and the wait expires after that. -/
def requestFails : List (Action Char) :=
  [.start,.connected none,.read none helloBytes true,.wrote (some .closed),.timerEnds 0,.onTimer 0 0]

theorem says_what_it_owes_requestFails : ∃ t, (machine helloText).Exec init requestFails t ∧
    written t.transport.log = [helloText.dump (tickerRequest "btcusd_p")] ∧ t.ping.state = .waitingPong ∧
    (machine helloText).collect (answers helloText) init requestFails =
      written t.transport.log ++ WssTransport.unwritten t.transport := by
  have hrun : (machine helloText).replay init requestFails = some _ := rfl
  have hexec := Machine.Exec.of_replay hrun
  exact ⟨_,hexec,rfl,rfl,says_what_it_owes hexec⟩

end FmexConnection
end BeastWebsocketEcho
