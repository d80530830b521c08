import BeastWebsocketEcho.Machine
import BeastWebsocketEcho.Net

/-!
# The base class of the exchange client

`ConnectionBase` after its connect operation was started. The virtual functions of the derived
class act on its own state `D` and pass frames `F` to `notify_send`; the machine is that of any
derived class that calls `notify_connect` once, which may also call `notify_send` and `fail` on its
own account. What is read is bytes `B`. An assertion is logged with its outcome.
-/

namespace BeastWebsocketEcho
namespace ConnectionBase

variable {B F D : Type*}

inductive SendState
  | sendIdle | sendSending
  deriving DecidableEq, Repr

/-- How `on_text_frame` may leave the `try` block of `on_read`. -/
inductive Thrown
  | systemError (code : Error)
  | exception
  deriving DecidableEq, Repr

def fault : Error := .other 14

/-- The virtual functions, each with the frames that it passes to `notify_send`. -/
structure Virtual (B F D : Type*) where
  onTransportUp : D → D × List F
  onError : Error → D → D × List F
  onTextFrame : List B → D → (D × List F) × Option Thrown

inductive Assertion
  | sendIdle | sendNonEmpty | writeNonEmpty
  deriving DecidableEq, Repr

inductive Event (F : Type*)
  | asyncConnect
  | connectDone (ec : ErrorCode)
  | transportUp
  | asyncRead
  | readDone (ec : ErrorCode)
  | textFrame
  | asyncClose
  | closeDone (ec : ErrorCode)
  /-- A frame given to `notify_send`. -/
  | submitted (frame : F)
  | asyncWrite (frame : F)
  | writeDone (ec : ErrorCode)
  | asserted (a : Assertion) (holds : Bool)
  /-- `on_error`. -/
  | error (ec : Error)
  deriving DecidableEq

structure State (B F D : Type*) where
  derived : D
  buffer : List B
  txQueue : List F
  sendState : SendState
  /-- `my_stop_token_` has its callback, `initiate_close`, in the register. -/
  closeRegistered : Bool
  /-- The operations that are outstanding; a write refers to the frame it was given. -/
  connects : ℕ
  reads : ℕ
  writes : List F
  closes : ℕ
  log : List (Event F)

namespace State

def emit (s : State B F D) (e : Event F) : State B F D := { s with log := s.log ++ [e] }

/-- `notify_connect` was called. -/
def init (d : D) : State B F D := ⟨d,[],[],.sendIdle,false,1,0,[],0,[.asyncConnect]⟩

def initiateSend (s : State B F D) : State B F D :=
  let s := (s.emit (.asserted .sendIdle (s.sendState == .sendIdle))).emit (.asserted .sendNonEmpty (!s.txQueue.isEmpty))
  match s.txQueue with
  | frame :: _ => { s with sendState := .sendSending, writes := s.writes ++ [frame] }.emit (.asyncWrite frame)
  | [] => { s with sendState := .sendSending }

def notifySend (s : State B F D) (frame : F) : State B F D :=
  let s := { s with txQueue := s.txQueue ++ [frame] }.emit (.submitted frame)
  if s.sendState == .sendIdle then s.initiateSend else s

/-- The frames that a virtual function passes on. -/
def notifyAll (s : State B F D) (frames : List F) : State B F D := frames.foldl notifySend s

def onError (s : State B F D) (v : Virtual B F D) (ec : Error) : State B F D :=
  ({ s with derived := (v.onError ec s.derived).1 }.emit (.error ec)).notifyAll (v.onError ec s.derived).2

/-- `fail` prints what has failed, and calls `on_error`. -/
def fail (s : State B F D) (v : Virtual B F D) (ec : Error) : State B F D := s.onError v ec

def enterReadState (s : State B F D) : State B F D := { s with reads := s.reads + 1 }.emit .asyncRead

/-- The handler of `notify_connect`. -/
def handleConnect (s : State B F D) (v : Virtual B F D) : ErrorCode → State B F D
  | some ec => s.fail v ec
  | none =>
    let up := v.onTransportUp s.derived
    { ({ s with derived := up.1 }.emit .transportUp).notifyAll up.2 with closeRegistered := true }.enterReadState

def onRead (s : State B F D) (v : Virtual B F D) : ErrorCode → State B F D
  | some ec => s.fail v ec
  | none =>
    let read := v.onTextFrame s.buffer s.derived
    let s := ({ s with derived := read.1.1 }.emit .textFrame).notifyAll read.1.2
    match read.2 with
    | none => { s with buffer := [] }.enterReadState
    | some (.systemError ec) => (s.fail v ec).onError v ec
    | some .exception => (s.fail v fault).onError v fault

def initiateClose (s : State B F D) : State B F D := { s with closes := s.closes + 1 }.emit .asyncClose

def onClose (s : State B F D) (v : Virtual B F D) : ErrorCode → State B F D
  | some ec => s.fail v ec
  | none => s

def onWrite (s : State B F D) (v : Virtual B F D) (ec : ErrorCode) : State B F D :=
  let s := { s with sendState := .sendIdle }.emit (.asserted .writeNonEmpty (!s.txQueue.isEmpty))
  let s := { s with txQueue := s.txQueue.tail }
  match ec with
  | some ec => s.fail v ec
  | none => if !s.txQueue.isEmpty then s.initiateSend else s

/-- The callbacks that `stop` notifies, after the connect operation. -/
def stop (s : State B F D) : State B F D :=
  if s.closeRegistered then { s with closeRegistered := false }.initiateClose else s

end State

inductive Action (B F D : Type*)
  | connected (ec : ErrorCode)
  | read (ec : ErrorCode) (bytes : List B)
  | wrote (ec : ErrorCode)
  | closed (ec : ErrorCode)
  | stop
  | notifySend (frame : F)
  | fail (ec : Error)
  /-- The derived class changes its own state. -/
  | derive (d : D)

def step (v : Virtual B F D) (s : State B F D) : Action B F D → Option (State B F D)
  | .connected ec =>
    if 0 < s.connects then some (({ s with connects := s.connects - 1 }.emit (.connectDone ec)).handleConnect v ec)
    else none
  | .read ec bytes =>
    if 0 < s.reads then
      some (({ s with reads := s.reads - 1, buffer := s.buffer ++ bytes }.emit (.readDone ec)).onRead v ec)
    else none
  | .wrote ec =>
    match s.writes with
    | _ :: writes => some (({ s with writes := writes }.emit (.writeDone ec)).onWrite v ec)
    | [] => none
  | .closed ec =>
    if 0 < s.closes then some (({ s with closes := s.closes - 1 }.emit (.closeDone ec)).onClose v ec) else none
  | .stop => some s.stop
  | .notifySend frame => some (s.notifySend frame)
  | .fail ec => some (s.fail v ec)
  | .derive d => some { s with derived := d }

def machine (v : Virtual B F D) : Machine (State B F D) (Action B F D) := ⟨fun s => ∃ d, s = State.init d,step v⟩

/-! ## What the send region and the handlers leave alone -/

section Rest

variable {v : Virtual B F D} {s t : State B F D}

/-- Everything but the send region and the log. -/
def State.rest (s : State B F D) : D × List B × Bool × ℕ × ℕ × ℕ :=
  (s.derived,s.buffer,s.closeRegistered,s.connects,s.reads,s.closes)

theorem rest_eq_iff : t.rest = s.rest ↔ t.derived = s.derived ∧ t.buffer = s.buffer ∧
    t.closeRegistered = s.closeRegistered ∧ t.connects = s.connects ∧ t.reads = s.reads ∧ t.closes = s.closes := by
  simp [State.rest]

@[simp] theorem initiateSend_rest (s : State B F D) : s.initiateSend.rest = s.rest := by
  cases hqueue : s.txQueue <;> simp [State.initiateSend,State.emit,State.rest,hqueue]

@[simp] theorem notifySend_rest (s : State B F D) (frame : F) : (s.notifySend frame).rest = s.rest := by
  simp only [State.notifySend]
  split
  · exact initiateSend_rest _
  · rfl

@[simp] theorem notifyAll_rest (s : State B F D) (frames : List F) : (s.notifyAll frames).rest = s.rest := by
  induction frames generalizing s with
  | nil => rfl
  | cons frame frames ih => exact (ih (s.notifySend frame)).trans (notifySend_rest s frame)

@[simp] theorem notifySend_derived (s : State B F D) (frame : F) : (s.notifySend frame).derived = s.derived :=
  (rest_eq_iff.mp (notifySend_rest s frame)).1

@[simp] theorem notifyAll_derived (s : State B F D) (frames : List F) : (s.notifyAll frames).derived = s.derived :=
  (rest_eq_iff.mp (notifyAll_rest s frames)).1

@[simp] theorem notifyAll_connects (s : State B F D) (frames : List F) : (s.notifyAll frames).connects = s.connects :=
  (rest_eq_iff.mp (notifyAll_rest s frames)).2.2.2.1

@[simp] theorem notifySend_connects (s : State B F D) (frame : F) : (s.notifySend frame).connects = s.connects :=
  (rest_eq_iff.mp (notifySend_rest s frame)).2.2.2.1

@[simp] theorem initiateSend_derived (s : State B F D) : s.initiateSend.derived = s.derived :=
  (rest_eq_iff.mp (initiateSend_rest s)).1

@[simp] theorem initiateSend_connects (s : State B F D) : s.initiateSend.connects = s.connects :=
  (rest_eq_iff.mp (initiateSend_rest s)).2.2.2.1

@[simp] theorem fail_derived (s : State B F D) (ec : Error) : (s.fail v ec).derived = (v.onError ec s.derived).1 := by
  simp [State.fail,State.onError,State.emit]

@[simp] theorem fail_connects (s : State B F D) (ec : Error) : (s.fail v ec).connects = s.connects := by
  simp [State.fail,State.onError,State.emit]

/-- The virtual functions that the handlers call once the transport is up. -/
inductive Called (v : Virtual B F D) (d : D) : D → Prop
  | same : Called v d d
  | onError {e : D} (ec : Error) : Called v d e → Called v d (v.onError ec e).1
  | onTextFrame {e : D} (frame : List B) : Called v d e → Called v d (v.onTextFrame frame e).1.1

/-- What a step does to the derived class, unless the transport comes up or the derived class acts itself. -/
structure Handled (v : Virtual B F D) (s t : State B F D) : Prop where
  derived : Called v s.derived t.derived
  connects : t.connects = s.connects

theorem handled_fail (s : State B F D) (ec : Error) : Handled v s (s.fail v ec) :=
  ⟨by simpa using Called.same.onError ec,by simp⟩

theorem Handled.fail (h : Handled v s t) (ec : Error) : Handled v s (t.fail v ec) :=
  ⟨by simpa using h.derived.onError ec,by simpa using h.connects⟩

theorem handled_onRead (s : State B F D) (ec : ErrorCode) : Handled v s (s.onRead v ec) := by
  cases ec with
  | some e => exact handled_fail s e
  | none =>
    have hframes : Handled v s (({ s with derived := (v.onTextFrame s.buffer s.derived).1.1 }.emit .textFrame).notifyAll
        (v.onTextFrame s.buffer s.derived).1.2) :=
      ⟨by simpa [State.emit] using Called.same.onTextFrame s.buffer,by simp [State.emit]⟩
    simp only [State.onRead]
    split
    · exact ⟨hframes.derived,hframes.connects⟩
    · exact (hframes.fail _).fail _
    · exact (hframes.fail _).fail _

theorem handled_onWrite (s : State B F D) (ec : ErrorCode) : Handled v s (s.onWrite v ec) := by
  have hended : Handled v s { { s with sendState := .sendIdle }.emit
      (.asserted .writeNonEmpty (!s.txQueue.isEmpty)) with txQueue := s.txQueue.tail } := ⟨Called.same,rfl⟩
  cases ec with
  | some e => exact hended.fail e
  | none =>
    simp only [State.onWrite]
    split
    · exact ⟨by simpa using hended.derived,by simpa using hended.connects⟩
    · exact hended

/-- Reads, writes, closes and stops go through the virtual functions. -/
theorem handled_step {a : Action B F D} (h : step v s a = some t)
    (ha : (∃ ec bytes, a = .read ec bytes) ∨ (∃ ec, a = .wrote ec) ∨ (∃ ec, a = .closed ec) ∨ a = .stop) :
    Handled v s t := by
  rcases ha with ⟨ec,bytes,rfl⟩ | ⟨ec,rfl⟩ | ⟨ec,rfl⟩ | rfl
  · obtain ⟨-,hok⟩ := Option.ite_none_right_eq_some.mp h
    obtain rfl := Option.some.inj hok
    have hread := handled_onRead (v := v)
      ({ s with reads := s.reads - 1, buffer := s.buffer ++ bytes }.emit (.readDone ec)) ec
    exact ⟨hread.derived,hread.connects⟩
  · cases hw : s.writes with
    | nil => simp [step,hw] at h
    | cons frame writes =>
      simp only [step,hw,Option.some.injEq] at h
      subst h
      have hwrote := handled_onWrite (v := v) ({ s with writes := writes }.emit (.writeDone ec)) ec
      exact ⟨hwrote.derived,hwrote.connects⟩
  · obtain ⟨-,hok⟩ := Option.ite_none_right_eq_some.mp h
    obtain rfl := Option.some.inj hok
    have hclosed : Handled v s ({ s with closes := s.closes - 1 }.emit (.closeDone ec)) := ⟨Called.same,rfl⟩
    cases ec with
    | some e => exact hclosed.fail e
    | none => exact hclosed
  · obtain rfl := Option.some.inj h
    unfold State.stop
    split <;> exact ⟨Called.same,rfl⟩

end Rest

/-! ## What the log says -/

def Event.submitted? : Event F → Option F
  | .submitted frame => some frame
  | _ => none

def Event.asyncWrite? : Event F → Option F
  | .asyncWrite frame => some frame
  | _ => none

def Event.writeDone? : Event F → Option ErrorCode
  | .writeDone ec => some ec
  | _ => none

def submitted (log : List (Event F)) : List F := log.filterMap Event.submitted?

def written (log : List (Event F)) : List F := log.filterMap Event.asyncWrite?

/-- The last write to complete has failed, and no frame was given to `notify_send` since. -/
def Stalled (log : List (Event F)) : Prop :=
  ∃ before ec after, log = before ++ .writeDone (some ec) :: after ∧
    ∀ e ∈ after, e.writeDone? = none ∧ e.submitted? = none

end ConnectionBase
end BeastWebsocketEcho
