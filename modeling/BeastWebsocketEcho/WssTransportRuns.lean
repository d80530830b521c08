import BeastWebsocketEcho.Chronicle
import BeastWebsocketEcho.Outbox
import BeastWebsocketEcho.WssTransport

/-!
# The events of the websocket transport

Two invariants, each kept by every function of the transport. The life of the transport:
its state, what the derived class was told of it, and the read that is outstanding. The
send region: the queue is an outbox, whose front is being written while it is busy.
-/

namespace BeastWebsocketEcho
namespace WssTransport

variable {B X : Type*} {s t : State B X}

open State

section Logs

variable (log : List (Event B X)) (e : Event B X)

@[simp] theorem accepted_snoc : accepted (log ++ [e]) = accepted log ++ e.accepted?.toList := by
  rw [accepted,List.filterMap_append,filterMap_cons_toList]
  simp [accepted]

@[simp] theorem written_snoc : written (log ++ [e]) = written log ++ e.asyncWrite?.toList := by
  rw [written,List.filterMap_append,filterMap_cons_toList]
  simp [written]

theorem length_snoc {F : Type*} (f : Event B X → Option F) :
    ((log ++ [e]).filterMap f).length = (log.filterMap f).length + (f e).toList.length := by
  rw [List.filterMap_append,filterMap_cons_toList]
  simp

theorem errored_snoc : Errored (log ++ [e]) ↔ Errored log ∨ ∃ ep, e = .transportError ep := by
  simp only [Errored,List.mem_append,List.mem_singleton,exists_or,eq_comm]

/-- An event that neither starts nor ends a read, and is told to nobody but the log. -/
def Event.internal : Event B X → Bool
  | .transportUp => false
  | .transportError _ => false
  | .asyncRead => false
  | .readDone _ => false
  | _ => true

variable {log e}

theorem errored_internal (he : e.internal = true) : Errored (log ++ [e]) ↔ Errored log := by
  rw [errored_snoc]
  refine or_iff_left ?_
  rintro ⟨ep,rfl⟩
  simp [Event.internal] at he

theorem reads_kept {n : ℕ} (hstart : e.asyncRead? = none) (hdone : e.readDone? = none) :
    OutstandingReads (log ++ [e]) n ↔ OutstandingReads log n := by
  rw [OutstandingReads,length_snoc,length_snoc,hstart,hdone]
  rfl

theorem reads_started {n : ℕ} (h : OutstandingReads log n) : OutstandingReads (log ++ [Event.asyncRead]) (n + 1) := by
  rw [OutstandingReads,length_snoc,length_snoc,h]
  rfl

theorem reads_ended {n : ℕ} (h : OutstandingReads log (n + 1)) (ec : ErrorCode) :
    OutstandingReads (log ++ [Event.readDone ec]) n := by
  rw [OutstandingReads,length_snoc,length_snoc,h]
  simp [Event.asyncRead?,Event.readDone?]
  omega

theorem writes_kept {n : ℕ} (hstart : e.asyncWrite? = none) (hdone : e.writeDone? = none) :
    OutstandingWrites (log ++ [e]) n ↔ OutstandingWrites log n := by
  rw [OutstandingWrites,length_snoc,length_snoc,hstart,hdone]
  rfl

theorem writes_started {n : ℕ} (h : OutstandingWrites log n) (frame : List B) :
    OutstandingWrites (log ++ [Event.asyncWrite frame]) (n + 1) := by
  rw [OutstandingWrites,length_snoc,length_snoc,h]
  rfl

theorem writes_ended {n : ℕ} (h : OutstandingWrites log (n + 1)) (ec : ErrorCode) :
    OutstandingWrites (log ++ [Event.writeDone ec]) n := by
  rw [OutstandingWrites,length_snoc,length_snoc,h]
  simp [Event.asyncWrite?,Event.writeDone?]
  omega

theorem reads_internal {n : ℕ} (he : e.internal = true) : OutstandingReads (log ++ [e]) n ↔ OutstandingReads log n := by
  have hstart : e.asyncRead? = none := by cases e <;> first | rfl | cases he
  have hdone : e.readDone? = none := by cases e <;> first | rfl | cases he
  exact reads_kept hstart hdone

theorem transportUp_internal (he : e.internal = true) : .transportUp ∈ log ++ [e] ↔ .transportUp ∈ log := by
  have hne : Event.transportUp ≠ e := by
    rintro rfl
    simp [Event.internal] at he
  simp [hne]

end Logs

section Fields

variable (s : State B X)

@[simp] theorem reads_startSending : s.startSending.reads = s.reads := by
  unfold State.startSending
  split
  · split <;> rfl
  · rfl

@[simp] theorem reads_call (c : Call B) : (s.call c).reads = s.reads := by
  cases c with
  | initiateConnect =>
    simp only [State.call,State.initiateConnect]
    split <;> rfl
  | sendTextFrame frame =>
    simp only [State.call,State.sendTextFrame]
    split
    · rfl
    · exact reads_startSending _

@[simp] theorem reads_calls (cs : List (Call B)) : (s.calls cs).reads = s.reads := by
  induction cs generalizing s with
  | nil => rfl
  | cons c cs ih => exact (ih (s.call c)).trans (reads_call s c)

@[simp] theorem reads_deliver (d : Derived B X) (text : Bool) (n : ℕ) : (s.deliver d text n).reads = s.reads := by
  unfold State.deliver
  split
  · exact reads_calls _ _
  · rfl

@[simp] theorem state_startSending : s.startSending.state = s.state := by
  unfold State.startSending
  split
  · split <;> rfl
  · rfl

variable {s}

theorem state_call (h : s.state ≠ .notStarted) (c : Call B) : (s.call c).state = s.state := by
  cases c with
  | initiateConnect =>
    simp only [State.call,State.initiateConnect]
    split
    · next hstate => exact absurd hstate h
    all_goals rfl
  | sendTextFrame frame =>
    simp only [State.call,State.sendTextFrame]
    split
    · rfl
    · exact state_startSending _

theorem state_calls (h : s.state ≠ .notStarted) (cs : List (Call B)) : (s.calls cs).state = s.state := by
  induction cs generalizing s with
  | nil => rfl
  | cons c cs ih =>
    have hfirst := state_call h c
    exact (ih (by rwa [hfirst])).trans hfirst

theorem state_deliver (h : s.state ≠ .notStarted) (d : Derived B X) (text : Bool) (n : ℕ) :
    (s.deliver d text n).state = s.state := by
  unfold State.deliver
  split
  · exact state_calls (s := s.emit (.textFrame (s.rxBuffer.take n))) h _
  · rfl

end Fields

/-- What must hold when an event is logged: the transport comes up once, fails once and not before that, and after
it has failed nothing is read or written; a read is started when no other one is outstanding. -/
def LifeOrder (before : List (Event B X)) : Event B X → Prop
  | .transportUp => .transportUp ∉ before ∧ ¬ Errored before
  | .transportError _ => ¬ Errored before
  | .asyncWrite _ => ¬ Errored before
  | .asyncRead => ¬ Errored before ∧ OutstandingReads before 0
  | _ => True

structure Lifecycle (s : State B X) : Prop where
  errored : Errored s.log ↔ s.state = .finished
  up : .transportUp ∈ s.log → s.state = .connected ∨ s.state = .finished
  early : s.state = .notStarted ∨ s.state = .connecting → s.reads = 0
  connects : s.connects ≤ 1
  connecting : 0 < s.connects → s.state = .connecting
  reads : s.reads ≤ 1
  outstanding : OutstandingReads s.log s.reads
  order : Chronicle LifeOrder s.log

namespace Lifecycle

theorem init : Lifecycle (State.init : State B X) where
  errored := by simp [State.init,Errored]
  up := by simp [State.init]
  early := by simp [State.init]
  connects := by simp [State.init]
  connecting := by simp [State.init]
  reads := by simp [State.init]
  outstanding := by simp [State.init,OutstandingReads]
  order := Chronicle.nil

theorem append (h : Lifecycle s) {e : Event B X} (he : e.internal = true) (horder : LifeOrder s.log e)
    (hsame : (t.state,t.connects,t.reads) = (s.state,s.connects,s.reads)) (hlog : t.log = s.log ++ [e]) :
    Lifecycle t := by
  simp only [Prod.mk.injEq] at hsame
  obtain ⟨hstate,hconnects,hreads⟩ := hsame
  constructor
  · rw [hlog,errored_internal he,hstate]
    exact h.errored
  · rw [hlog,transportUp_internal he,hstate]
    exact h.up
  · rw [hstate,hreads]
    exact h.early
  · rw [hconnects]
    exact h.connects
  · rw [hconnects,hstate]
    exact h.connecting
  · rw [hreads]
    exact h.reads
  · rw [hlog,hreads,reads_internal he]
    exact h.outstanding
  · rw [hlog]
    exact h.order.snoc horder

theorem not_errored (h : Lifecycle s) (hstate : s.state ≠ .finished) : ¬ Errored s.log :=
  fun herrored => hstate (h.errored.mp herrored)

theorem initiateConnect (h : Lifecycle s) : Lifecycle s.initiateConnect := by
  cases hstate : s.state with
  | notStarted =>
    have hconnects : s.connects = 0 := by
      by_contra hne
      simpa [hstate] using h.connecting (Nat.pos_of_ne_zero hne)
    have hreads := h.early (Or.inl hstate)
    have hup : Event.transportUp ∉ s.log := fun hmem => by simpa [hstate] using h.up hmem
    have herrored := h.not_errored (by simp [hstate])
    simp only [State.initiateConnect,hstate]
    constructor
    · simpa [emit,errored_internal (e := Event.asyncConnect) rfl] using herrored
    · simp [emit,hup]
    · exact fun _ => hreads
    · simp [emit,hconnects]
    · exact fun _ => rfl
    · exact h.reads
    · simpa [emit,reads_internal (e := Event.asyncConnect) rfl] using h.outstanding
    · exact h.order.snoc trivial
  | _ => simpa only [State.initiateConnect,hstate] using h

theorem startSending (h : Lifecycle s) : Lifecycle s.startSending := by
  unfold State.startSending
  split
  · next hgo =>
    simp only [Bool.and_eq_true,beq_iff_eq] at hgo
    split
    · exact h.append (e := .asyncWrite _) rfl (h.not_errored (by simp [hgo.1])) rfl rfl
    · exact h
  · exact h

theorem sendTextFrame (h : Lifecycle s) (frame : List B) : Lifecycle (s.sendTextFrame frame) := by
  unfold State.sendTextFrame
  split
  · exact h
  · have htaken : Lifecycle ({ s with sendQueue := s.sendQueue ++ [frame] }.emit (.accepted frame)) :=
      h.append (e := .accepted frame) rfl trivial rfl rfl
    exact htaken.startSending

theorem call (h : Lifecycle s) (c : Call B) : Lifecycle (s.call c) := by
  cases c with
  | initiateConnect => exact h.initiateConnect
  | sendTextFrame frame => exact h.sendTextFrame frame

theorem calls (h : Lifecycle s) (cs : List (Call B)) : Lifecycle (s.calls cs) := by
  induction cs generalizing s with
  | nil => exact h
  | cons c cs ih => exact ih (h.call c)

theorem startReading (h : Lifecycle s) (hreads : s.reads = 0) : Lifecycle s.startReading := by
  unfold State.startReading
  split
  · exact h
  · next hgo =>
    have hstate : s.state = .connected := by simpa using hgo
    have herrored := h.not_errored (by simp [hstate])
    have hnone : OutstandingReads s.log 0 := hreads ▸ h.outstanding
    constructor
    · simpa [emit,errored_snoc,hstate] using herrored
    · exact fun _ => Or.inl hstate
    · simp [emit,hstate]
    · exact h.connects
    · exact h.connecting
    · simp [emit,hreads]
    · exact reads_started h.outstanding
    · exact h.order.snoc ⟨herrored,hnone⟩

theorem eventTransportUp (h : Lifecycle s) (hstate : s.state = .connecting) (hconnects : s.connects = 0)
    (d : Derived B X) : Lifecycle (s.eventTransportUp d) := by
  have hreads := h.early (Or.inr hstate)
  have hup : Event.transportUp ∉ s.log := fun hmem => by simpa [hstate] using h.up hmem
  have herrored := h.not_errored (by simp [hstate])
  have htold : Lifecycle ({ s with state := .connected }.emit .transportUp) := by
    constructor
    · simpa [emit,errored_snoc] using herrored
    · exact fun _ => Or.inl rfl
    · simp [emit]
    · simp [emit,hconnects]
    · simp [emit,hconnects]
    · exact h.reads
    · exact (reads_kept rfl rfl).mpr h.outstanding
    · exact h.order.snoc ⟨hup,herrored⟩
  refine ((htold.calls d.onTransportUp).startSending).startReading ?_
  rw [reads_startSending,reads_calls]
  exact hreads

theorem eventTransportError (h : Lifecycle s) (hconnects : s.connects = 0) (d : Derived B X) (ep : ExceptionPtr X) :
    Lifecycle (s.eventTransportError d ep) := by
  have htold (hstate : s.state ≠ .finished) (hearly : s.state ≠ .notStarted) :
      Lifecycle ({ s with state := .finished }.emit (.transportError ep)) := by
    constructor
    · simp [emit,errored_snoc]
    · exact fun _ => Or.inr rfl
    · simp [emit]
    · simp [emit,hconnects]
    · simp [emit,hconnects]
    · exact h.reads
    · exact (reads_kept rfl rfl).mpr h.outstanding
    · exact h.order.snoc (h.not_errored hstate)
  unfold State.eventTransportError
  split
  · next hstate => exact (htold (by simp [hstate]) (by simp [hstate])).calls d.onTransportError
  · next hstate => exact (htold (by simp [hstate]) (by simp [hstate])).calls d.onTransportError
  · next hstate => exact (htold (by simp [hstate]) (by simp [hstate])).calls d.onTransportError
  · exact h
  · exact h

theorem start (h : Lifecycle s) (onStart : List (Call B)) : Lifecycle (s.start onStart) := by
  unfold State.start
  split
  · exact h.calls onStart
  all_goals exact h.append (e := .startAsserted) rfl trivial rfl rfl

theorem connected (h : Lifecycle s) (hgo : 0 < s.connects) (ec : ErrorCode) (d : Derived B X) :
    Lifecycle (({ s with connects := s.connects - 1 }.emit (.connectDone ec)).handleConnect d ec) := by
  have hstate := h.connecting hgo
  have hone : s.connects - 1 = 0 := by have := h.connects; omega
  have hdone : Lifecycle ({ s with connects := s.connects - 1 }.emit (.connectDone ec)) := by
    have hidle : Lifecycle { s with connects := s.connects - 1 } :=
      ⟨h.errored,h.up,h.early,by simp [hone],by simp [hone],h.reads,h.outstanding,h.order⟩
    exact hidle.append (e := .connectDone ec) rfl trivial rfl rfl
  cases ec with
  | some e => exact hdone.eventTransportError hone d _
  | none => exact hdone.eventTransportUp hstate hone d

theorem connects_eq_zero (h : Lifecycle s) (hstate : s.state ≠ .connecting) : s.connects = 0 := by
  by_contra hne
  exact hstate (h.connecting (Nat.pos_of_ne_zero hne))

/-- A write ends when the transport is past connecting. -/
theorem wrote (h : Lifecycle s) (hstate : s.state ≠ .connecting) (writes : List (List B)) (ec : ErrorCode)
    (d : Derived B X) : Lifecycle (({ s with writes := writes }.emit (.writeDone ec)).handleSend d ec) := by
  have hdone : Lifecycle ({ s with writes := writes }.emit (.writeDone ec)) :=
    h.append (e := .writeDone ec) rfl trivial rfl rfl
  have hpopped :
      Lifecycle ({ { s with writes := writes }.emit (.writeDone ec) with sendState := .notSending }.popFront) :=
    hdone.append (e := .popFront _) rfl trivial rfl rfl
  cases ec with
  | some e => exact hpopped.eventTransportError (h.connects_eq_zero hstate) d _
  | none => exact hpopped.startSending

theorem deliver (h : Lifecycle s) (d : Derived B X) (text : Bool) (n : ℕ) : Lifecycle (s.deliver d text n) := by
  unfold State.deliver
  split
  · have htold : Lifecycle (s.emit (.textFrame (s.rxBuffer.take n))) :=
      h.append (e := .textFrame _) rfl trivial rfl rfl
    exact htold.calls d.onTextFrame
  · exact h

theorem rxBuffer (h : Lifecycle s) (bytes : List B) : Lifecycle { s with rxBuffer := bytes } :=
  ⟨h.errored,h.up,h.early,h.connects,h.connecting,h.reads,h.outstanding,h.order⟩

theorem handleRead (h : Lifecycle s) (hreads : s.reads = 0) (hnew : s.state ≠ .notStarted)
    (hstate : s.state ≠ .connecting) (d : Derived B X) (text : Bool) (ec : ErrorCode) (n : ℕ) :
    Lifecycle (s.handleRead d text ec n) := by
  cases ec with
  | some e => exact h.eventTransportError (h.connects_eq_zero hstate) d _
  | none =>
    have hdelivered := h.deliver d text n
    have hsame := state_deliver hnew d text n
    simp only [State.handleRead]
    split
    · exact hdelivered.eventTransportError (hdelivered.connects_eq_zero (by rwa [hsame])) d _
    · exact (hdelivered.rxBuffer _).startReading ((reads_deliver s d text n).trans hreads)

theorem read (h : Lifecycle s) (hgo : 0 < s.reads) (ec : ErrorCode) (bytes : List B) (text : Bool) (d : Derived B X) :
    Lifecycle (({ s with reads := s.reads - 1, rxBuffer := s.rxBuffer ++ bytes }.emit (.readDone ec)).handleRead d text
      ec bytes.length) := by
  have hzero : s.reads - 1 = 0 := by have := h.reads; omega
  have hlate : ¬ (s.state = .notStarted ∨ s.state = .connecting) := fun hearly => by
    simp [h.early hearly] at hgo
  rw [not_or] at hlate
  have hdone : Lifecycle ({ s with reads := s.reads - 1, rxBuffer := s.rxBuffer ++ bytes }.emit (.readDone ec)) := by
    constructor
    · simpa [emit,errored_snoc] using h.errored
    · simpa [emit] using h.up
    · exact fun _ => hzero
    · exact h.connects
    · exact h.connecting
    · simp [emit,hzero]
    · have hone : s.reads = s.reads - 1 + 1 := by omega
      exact reads_ended (hone ▸ h.outstanding) ec
    · exact h.order.snoc trivial
  exact hdone.handleRead hzero hlate.1 hlate.2 d text ec bytes.length

end Lifecycle

/-- What must hold when an event is logged: a write is started when no other one is outstanding, and a frame is
taken from the queue when there is one, and none is being written. -/
def SendOrder (before : List (Event B X)) : Event B X → Prop
  | .asyncWrite _ => OutstandingWrites before 0
  | .popFront front => front ≠ none ∧ OutstandingWrites before 0
  | _ => True

structure Region (s : State B X) (o : Outbox (List B)) : Prop where
  queue : o.queue = s.sendQueue
  busy : o.busy = true ↔ s.sendState = .sending
  submitted : o.submitted = accepted s.log
  started : o.started = written s.log
  writes : s.writes = if o.busy then o.queue.head?.toList else []
  outstanding : OutstandingWrites s.log s.writes.length
  early : s.state = .notStarted ∨ s.state = .connecting → s.writes = []
  order : Chronicle SendOrder s.log

def Event.sends : Event B X → Bool
  | .accepted _ => true
  | .asyncWrite _ => true
  | .writeDone _ => true
  | .popFront _ => true
  | _ => false

namespace Region

variable {o : Outbox (List B)}

theorem init : Region (State.init : State B X) Outbox.empty where
  queue := rfl
  busy := by simp [Outbox.empty,State.init]
  submitted := rfl
  started := rfl
  writes := rfl
  outstanding := rfl
  early := fun _ => rfl
  order := Chronicle.nil

theorem append (h : Region s o) {e : Event B X} (he : e.sends = false)
    (hsame : (t.sendQueue,t.sendState,t.writes) = (s.sendQueue,s.sendState,s.writes)) (hlog : t.log = s.log ++ [e])
    (hearly : t.state = .notStarted ∨ t.state = .connecting → s.writes = []) : Region t o := by
  simp only [Prod.mk.injEq] at hsame
  obtain ⟨hqueue,hsend,hwrites⟩ := hsame
  have haccepted : e.accepted? = none := by cases e <;> first | rfl | cases he
  have hwritten : e.asyncWrite? = none := by cases e <;> first | rfl | cases he
  have hdone : e.writeDone? = none := by cases e <;> first | rfl | cases he
  have horder : SendOrder s.log e := by
    cases e with
    | asyncWrite frame => cases he
    | popFront front => cases he
    | _ => trivial
  constructor
  · rw [hqueue]
    exact h.queue
  · rw [hsend]
    exact h.busy
  · rw [hlog,accepted_snoc,haccepted]
    simpa using h.submitted
  · rw [hlog,written_snoc,hwritten]
    simpa using h.started
  · rw [hwrites]
    exact h.writes
  · rw [hlog,hwrites]
    exact (writes_kept hwritten hdone).mpr h.outstanding
  · rw [hwrites]
    exact hearly
  · rw [hlog]
    exact h.order.snoc horder

theorem initiateConnect (h : Region s o) : Region s.initiateConnect o := by
  unfold State.initiateConnect
  split
  · next hstate =>
    exact h.append (e := .asyncConnect) rfl rfl rfl fun _ => h.early (Or.inl hstate)
  all_goals exact h

theorem write (h : Region s o) (hstate : s.state = .connected) (hfree : s.sendState = .notSending) {frame : List B}
    {rest : List (List B)} (hqueue : s.sendQueue = frame :: rest) : ∃ o', Region
      ({ s with sendState := .sending, writes := s.writes ++ [frame] }.emit (.asyncWrite frame)) o' := by
  have hidle : o.busy = false := by simp [← Bool.not_eq_true,h.busy,hfree]
  have hne : o.queue ≠ [] := by simp [h.queue,hqueue]
  have hwrites : s.writes = [] := by simpa [hidle] using h.writes
  have hnone : OutstandingWrites s.log 0 := by simpa [hwrites] using h.outstanding
  refine ⟨o.start hne,h.queue,iff_of_true rfl rfl,?_,?_,?_,?_,?_,?_⟩
  · simpa [emit,Event.accepted?] using h.submitted
  · simp [emit,o.started_start hne hidle,h.started,h.queue,hqueue,Event.asyncWrite?]
  · simp [emit,hwrites,Outbox.start,h.queue,hqueue]
  · simpa [emit,hwrites] using writes_started hnone frame
  · simp [emit,hstate]
  · exact h.order.snoc hnone

theorem startSending (h : Region s o) : ∃ o', Region s.startSending o' := by
  unfold State.startSending
  split
  · next hgo =>
    simp only [Bool.and_eq_true,beq_iff_eq] at hgo
    split
    · next hqueue => exact h.write hgo.1 hgo.2 hqueue
    · exact ⟨o,h⟩
  · exact ⟨o,h⟩

theorem submit (h : Region s o) (frame : List B) :
    Region ({ s with sendQueue := s.sendQueue ++ [frame] }.emit (.accepted frame)) (o.submit frame) := by
  constructor
  · simp [Outbox.submit,emit,h.queue]
  · exact h.busy
  · simp [emit,h.submitted,Event.accepted?]
  · simp [emit,h.started,Event.asyncWrite?]
  · cases hb : o.busy with
    | false => simpa [emit,Outbox.submit,hb] using h.writes
    | true =>
      have hhead : (o.queue ++ [frame]).head? = o.queue.head? := List.head?_append_of_ne_nil _ (o.front hb)
      simpa [emit,Outbox.submit,hb,hhead] using h.writes
  · exact (writes_kept rfl rfl).mpr h.outstanding
  · exact h.early
  · exact h.order.snoc trivial

theorem sendTextFrame (h : Region s o) (frame : List B) : ∃ o', Region (s.sendTextFrame frame) o' := by
  unfold State.sendTextFrame
  split
  · exact ⟨o,h⟩
  · exact (h.submit frame).startSending

theorem call (h : Region s o) (c : Call B) : ∃ o', Region (s.call c) o' := by
  cases c with
  | initiateConnect => exact ⟨o,h.initiateConnect⟩
  | sendTextFrame frame => exact h.sendTextFrame frame

theorem calls (h : Region s o) (cs : List (Call B)) : ∃ o', Region (s.calls cs) o' := by
  induction cs generalizing s o with
  | nil => exact ⟨o,h⟩
  | cons c cs ih =>
    obtain ⟨o',h'⟩ := h.call c
    exact ih h'

theorem startReading (h : Region s o) : Region s.startReading o := by
  unfold State.startReading
  split
  · exact h
  · exact h.append (e := .asyncRead) rfl rfl rfl h.early

theorem eventTransportUp (h : Region s o) (d : Derived B X) : ∃ o', Region (s.eventTransportUp d) o' := by
  have htold : Region ({ s with state := .connected }.emit .transportUp) o :=
    h.append (e := .transportUp) rfl rfl rfl (by simp [emit])
  obtain ⟨o₁,h₁⟩ := htold.calls d.onTransportUp
  obtain ⟨o₂,h₂⟩ := h₁.startSending
  exact ⟨o₂,h₂.startReading⟩

theorem eventTransportError (h : Region s o) (d : Derived B X) (ep : ExceptionPtr X) :
    ∃ o', Region (s.eventTransportError d ep) o' := by
  have htold : Region ({ s with state := .finished }.emit (.transportError ep)) o :=
    h.append (e := .transportError ep) rfl rfl rfl (by simp [emit])
  unfold State.eventTransportError
  split
  · exact htold.calls d.onTransportError
  · exact htold.calls d.onTransportError
  · exact htold.calls d.onTransportError
  · exact ⟨o,h⟩
  · exact ⟨o,h⟩

theorem start (h : Region s o) (onStart : List (Call B)) : ∃ o', Region (s.start onStart) o' := by
  unfold State.start
  split
  · exact h.calls onStart
  all_goals exact ⟨o,h.append (e := .startAsserted) rfl rfl rfl h.early⟩

theorem connected (h : Region s o) (n : ℕ) (ec : ErrorCode) (d : Derived B X) :
    ∃ o', Region (({ s with connects := n }.emit (.connectDone ec)).handleConnect d ec) o' := by
  have hdone : Region ({ s with connects := n }.emit (.connectDone ec)) o :=
    h.append (e := .connectDone ec) rfl rfl rfl h.early
  cases ec with
  | some e => exact hdone.eventTransportError d _
  | none => exact hdone.eventTransportUp d

/-- The write that has ended was the one of the front of the queue. -/
theorem written (h : Region s o) {frame : List B} {writes : List (List B)} (hw : s.writes = frame :: writes)
    (ec : ErrorCode) :
    Region ({ { s with writes := writes }.emit (.writeDone ec) with sendState := .notSending }.popFront)
      o.finish := by
  have hbusy : o.busy = true := by
    by_contra hidle
    simp [h.writes,hidle] at hw
  obtain ⟨v,vs,hqueue⟩ := List.exists_cons_of_ne_nil (o.front hbusy)
  have hnil : writes = [] := by
    have hone := h.writes
    rw [hw,hbusy,hqueue] at hone
    simpa using (List.cons.inj hone).2
  subst hnil
  have hsend : s.sendQueue = v :: vs := by rw [← h.queue,hqueue]
  have haccepted : accepted ((s.log ++ [Event.writeDone ec]) ++ [Event.popFront s.sendQueue.head?]) =
      accepted s.log := by
    rw [accepted_snoc,accepted_snoc]
    simp [Event.accepted?]
  have hwritten : WssTransport.written ((s.log ++ [Event.writeDone ec]) ++ [Event.popFront s.sendQueue.head?]) =
      WssTransport.written s.log := by
    rw [written_snoc,written_snoc]
    simp [Event.asyncWrite?]
  have hended : OutstandingWrites (s.log ++ [Event.writeDone ec]) 0 :=
    writes_ended (by simpa [hw] using h.outstanding) ec
  constructor
  · simp [Outbox.finish,popFront,emit,h.queue]
  · simp [Outbox.finish,popFront,emit]
  · exact (o.submitted_finish.trans h.submitted).trans haccepted.symm
  · exact ((o.started_finish hbusy).trans h.started).trans hwritten.symm
  · simp [Outbox.finish,popFront,emit]
  · exact (writes_kept rfl rfl).mpr hended
  · exact fun _ => rfl
  · have hfirst : Chronicle SendOrder (s.log ++ [Event.writeDone ec]) := h.order.snoc trivial
    exact hfirst.snoc ⟨by simp [emit,hsend],hended⟩

theorem wrote (h : Region s o) {frame : List B} {writes : List (List B)} (hw : s.writes = frame :: writes)
    (ec : ErrorCode) (d : Derived B X) :
    ∃ o', Region (({ s with writes := writes }.emit (.writeDone ec)).handleSend d ec) o' := by
  have hdone := h.written hw ec
  cases ec with
  | some e => exact hdone.eventTransportError d _
  | none => exact hdone.startSending

theorem deliver (h : Region s o) (d : Derived B X) (text : Bool) (n : ℕ) : ∃ o', Region (s.deliver d text n) o' := by
  unfold State.deliver
  split
  · have htold : Region (s.emit (.textFrame (s.rxBuffer.take n))) o :=
      h.append (e := .textFrame _) rfl rfl rfl h.early
    exact htold.calls d.onTextFrame
  · exact ⟨o,h⟩

theorem rxBuffer (h : Region s o) (bytes : List B) : Region { s with rxBuffer := bytes } o :=
  ⟨h.queue,h.busy,h.submitted,h.started,h.writes,h.outstanding,h.early,h.order⟩

theorem read (h : Region s o) (n : ℕ) (ec : ErrorCode) (bytes : List B) (text : Bool) (d : Derived B X) :
    ∃ o', Region (({ s with reads := n, rxBuffer := s.rxBuffer ++ bytes }.emit (.readDone ec)).handleRead d text
      ec bytes.length) o' := by
  have hdone : Region ({ s with reads := n, rxBuffer := s.rxBuffer ++ bytes }.emit (.readDone ec)) o :=
    h.append (e := .readDone ec) rfl rfl rfl h.early
  cases ec with
  | some e => exact hdone.eventTransportError d _
  | none =>
    obtain ⟨o',hdelivered⟩ := hdone.deliver d text bytes.length
    simp only [State.handleRead]
    split
    · exact hdelivered.eventTransportError d _
    · exact ⟨o',(hdelivered.rxBuffer _).startReading⟩

end Region

/-- Nothing waits for a write that nobody started. -/
def Flowing (s : State B X) : Prop := s.state = .connected → s.sendQueue ≠ [] → s.sendState = .sending

namespace Flowing

theorem startSending (s : State B X) : Flowing s.startSending := by
  unfold State.startSending
  split
  · split
    · exact fun _ _ => rfl
    · next hqueue => exact fun _ hne => absurd hqueue hne
  · next hstay =>
    intro hstate hne
    cases hsend : s.sendState with
    | sending => rfl
    | notSending => simp [hstate,hsend] at hstay

theorem call (h : Flowing s) (c : Call B) : Flowing (s.call c) := by
  cases c with
  | initiateConnect =>
    simp only [State.call,State.initiateConnect]
    split
    · simp [Flowing,emit]
    all_goals exact h
  | sendTextFrame frame =>
    simp only [State.call,State.sendTextFrame]
    split
    · exact h
    · exact startSending _

theorem calls (h : Flowing s) (cs : List (Call B)) : Flowing (s.calls cs) := by
  induction cs generalizing s with
  | nil => exact h
  | cons c cs ih => exact ih (h.call c)

theorem startReading (h : Flowing s) : Flowing s.startReading := by
  unfold State.startReading
  split <;> exact h

theorem eventTransportUp (s : State B X) (d : Derived B X) : Flowing (s.eventTransportUp d) :=
  (startSending _).startReading

/-- A transport that reports an error is not connected any more. -/
theorem eventTransportError (s : State B X) (d : Derived B X) (ep : ExceptionPtr X) :
    Flowing (s.eventTransportError d ep) := by
  have hended : Flowing ({ s with state := .finished }.emit (.transportError ep)) := by simp [Flowing,emit]
  unfold State.eventTransportError
  split
  · exact hended.calls d.onTransportError
  · exact hended.calls d.onTransportError
  · exact hended.calls d.onTransportError
  · next hstate => simp [Flowing,hstate]
  · next hstate => simp [Flowing,hstate]

theorem deliver (h : Flowing s) (d : Derived B X) (text : Bool) (n : ℕ) : Flowing (s.deliver d text n) := by
  unfold State.deliver
  split
  · have htold : Flowing (s.emit (.textFrame (s.rxBuffer.take n))) := h
    exact htold.calls d.onTextFrame
  · exact h

theorem handleRead (h : Flowing s) (d : Derived B X) (text : Bool) (ec : ErrorCode) (n : ℕ) :
    Flowing (s.handleRead d text ec n) := by
  cases ec with
  | some e => exact eventTransportError _ _ _
  | none =>
    have hdelivered : Flowing { s.deliver d text n with rxBuffer := (s.deliver d text n).rxBuffer.drop n } :=
      h.deliver d text n
    simp only [State.handleRead]
    split
    · exact eventTransportError _ _ _
    · exact hdelivered.startReading

theorem step (h : Flowing s) {a : Action B X} (ha : step s a = some t) : Flowing t := by
  cases a with
  | start onStart =>
    obtain rfl := Option.some.inj ha
    unfold State.start
    split
    · exact h.calls onStart
    all_goals exact h
  | call c =>
    obtain rfl := Option.some.inj ha
    exact h.call c
  | connected ec d =>
    obtain ⟨hgo,hok⟩ := Option.ite_none_right_eq_some.mp ha
    obtain rfl := Option.some.inj hok
    cases ec with
    | some e => exact eventTransportError _ _ _
    | none => exact eventTransportUp _ _
  | wrote ec d =>
    cases hw : s.writes with
    | nil => simp [WssTransport.step,hw] at ha
    | cons frame writes =>
      simp only [WssTransport.step,hw,Option.some.injEq] at ha
      subst ha
      cases ec with
      | some e => exact eventTransportError _ _ _
      | none => exact startSending _
  | read ec bytes text d =>
    obtain ⟨hgo,hok⟩ := Option.ite_none_right_eq_some.mp ha
    obtain rfl := Option.some.inj hok
    have hdone : Flowing ({ s with reads := s.reads - 1, rxBuffer := s.rxBuffer ++ bytes }.emit (.readDone ec)) := h
    exact hdone.handleRead d text ec bytes.length

end Flowing

structure Sound (s : State B X) : Prop where
  life : Lifecycle s
  region : ∃ o, Region s o
  flowing : Flowing s

theorem sound_init : Sound (State.init : State B X) where
  life := Lifecycle.init
  region := ⟨_,Region.init⟩
  flowing := by simp [Flowing,State.init]

theorem sound_step (h : Sound s) {a : Action B X} (ha : step s a = some t) : Sound t := by
  have hflowing := h.flowing.step ha
  obtain ⟨o,hregion⟩ := h.region
  cases a with
  | start onStart =>
    obtain rfl := Option.some.inj ha
    exact ⟨h.life.start onStart,hregion.start onStart,hflowing⟩
  | call c =>
    obtain rfl := Option.some.inj ha
    exact ⟨h.life.call c,hregion.call c,hflowing⟩
  | connected ec d =>
    obtain ⟨hgo,hok⟩ := Option.ite_none_right_eq_some.mp ha
    obtain rfl := Option.some.inj hok
    exact ⟨h.life.connected hgo ec d,hregion.connected _ ec d,hflowing⟩
  | wrote ec d =>
    cases hw : s.writes with
    | nil => simp [step,hw] at ha
    | cons frame writes =>
      simp only [step,hw,Option.some.injEq] at ha
      subst ha
      have hstate : s.state ≠ .connecting := fun hearly => by simpa [hw] using hregion.early (Or.inr hearly)
      exact ⟨h.life.wrote hstate writes ec d,hregion.wrote hw ec d,hflowing⟩
  | read ec bytes text d =>
    obtain ⟨hgo,hok⟩ := Option.ite_none_right_eq_some.mp ha
    obtain rfl := Option.some.inj hok
    exact ⟨h.life.read hgo ec bytes text d,hregion.read _ ec bytes text d,hflowing⟩

theorem sound_of_reachable (h : machine.Reachable s) : Sound s := by
  refine h.invariant (I := Sound) ?_ ?_
  · rintro _ rfl
    exact sound_init
  · exact fun s a t hs ha => sound_step hs ha

structure Disciplined (s : State B X) : Prop where
  /-- The transport comes up at most once and fails at most once, and not the other way round; nothing is started
  after it has failed, and no second read beside another one. -/
  events : Chronicle LifeOrder s.log
  /-- No second write is started beside another one, and nothing is popped from an empty queue or while it is
    written. -/
  sends : Chronicle SendOrder s.log
  outstanding : OutstandingReads s.log s.reads ∧ OutstandingWrites s.log s.writes.length
  reads : s.reads ≤ 1
  writes : s.writes.length ≤ 1
  front : ∀ frame ∈ s.writes, s.sendQueue.head? = some frame
  written : written s.log <+: accepted s.log
  flowing : s.state = .connected → s.sendQueue ≠ [] → s.writes ≠ []

/-- Every run of a transport keeps the discipline of its events, whatever the derived class does in its overrides. -/
theorem event_discipline (h : machine.Reachable s) : Disciplined s := by
  obtain ⟨hlife,⟨o,hregion⟩,hflowing⟩ := sound_of_reachable h
  refine ⟨hlife.order,hregion.order,⟨hlife.outstanding,hregion.outstanding⟩,hlife.reads,?_,?_,?_,?_⟩
  · rw [hregion.writes]
    split
    · cases o.queue.head? <;> simp
    · simp
  · intro frame hframe
    rw [hregion.writes] at hframe
    split at hframe
    · rw [← hregion.queue]
      simpa using hframe
    · simp at hframe
  · rw [← hregion.started,← hregion.submitted]
    exact o.started_prefix
  · intro hstate hne hnil
    have hbusy := hregion.busy.mpr (hflowing hstate hne)
    obtain ⟨v,vs,hqueue⟩ := List.exists_cons_of_ne_nil (o.front hbusy)
    rw [hregion.writes,hbusy,hqueue] at hnil
    simp at hnil

/-- A derived class that answers every text frame, and throws. -/
def answering (throws : Option ℕ) : Derived ℕ ℕ where
  onTransportUp := [.sendTextFrame [1],.initiateConnect,.sendTextFrame [2]]
  onTransportError := [.sendTextFrame [9]]
  onTextFrame := [.sendTextFrame [3]]
  throws := throws

def failing : List (Action ℕ ℕ) :=
  [.start [.initiateConnect],.connected none (answering none),.read none [5] true (answering none),
    .wrote none (answering none),.wrote (some .closed) (answering none),.read none [6] true (answering (some 4))]

theorem failing_disciplined : ∃ s, machine.replay State.init failing = some s ∧ Disciplined s :=
  have hrun : machine.replay State.init failing = some _ := rfl
  ⟨_,rfl,event_discipline (Machine.Reachable.of_replay rfl hrun)⟩

end WssTransport
end BeastWebsocketEcho
