import BeastWebsocketEcho.Machine
import BeastWebsocketEcho.Net

/-!
# The websocket transport

`wss_transport`, the base of a class whose overrides are told of the events of a websocket
and may call back into it. Frames are lists of bytes `B`, and an override may throw an
exception `X`. What the overrides do in an event is part of the action; the operations that
were started complete in any order.
-/

namespace BeastWebsocketEcho
namespace WssTransport

variable {B X : Type*}

inductive StateType
  | notStarted | connecting | connected | closing | finished
  deriving DecidableEq, Repr

inductive SendState
  | notSending | sending
  deriving DecidableEq, Repr

/-- What `on_transport_error` is called with: the `system_error` of an error code, or what was thrown. -/
inductive ExceptionPtr (X : Type*)
  | systemError (ec : Error)
  | thrown (exception : X)
  deriving DecidableEq, Repr

/-- The internal interface for derived classes. -/
inductive Call (B : Type*)
  | initiateConnect
  | sendTextFrame (frame : List B)
  deriving DecidableEq, Repr

/-- What the overrides of the derived class do when they are called. -/
structure Derived (B X : Type*) where
  onTransportUp : List (Call B)
  onTransportError : List (Call B)
  onTextFrame : List (Call B)
  /-- `on_text_frame` ends with this exception. -/
  throws : Option X

inductive Event (B X : Type*)
  /-- `start` on a transport that was started before. -/
  | startAsserted
  | transportUp
  | transportError (ep : ExceptionPtr X)
  | textFrame (frame : List B)
  /-- A frame that `send_text_frame` takes. -/
  | accepted (frame : List B)
  | asyncConnect
  | asyncWrite (frame : List B)
  | asyncRead
  | connectDone (ec : ErrorCode)
  | writeDone (ec : ErrorCode)
  | readDone (ec : ErrorCode)
  /-- `pop_front`, with the front of the queue if it has one. -/
  | popFront (front : Option (List B))
  deriving DecidableEq, Repr

structure State (B X : Type*) where
  state : StateType
  sendState : SendState
  sendQueue : List (List B)
  rxBuffer : List B
  /-- The operations that are outstanding; a write refers to the frame it was given. -/
  connects : ℕ
  writes : List (List B)
  reads : ℕ
  log : List (Event B X)

namespace State

def init : State B X := ⟨.notStarted,.notSending,[],[],0,[],0,[]⟩

def emit (s : State B X) (e : Event B X) : State B X := { s with log := s.log ++ [e] }

def initiateConnect (s : State B X) : State B X :=
  match s.state with
  | .notStarted => { s with state := .connecting, connects := s.connects + 1 }.emit .asyncConnect
  | .connecting | .connected | .closing | .finished => s

def startSending (s : State B X) : State B X :=
  if s.state == .connected && s.sendState == .notSending then
    match s.sendQueue with
    | frame :: _ => { s with sendState := .sending, writes := s.writes ++ [frame] }.emit (.asyncWrite frame)
    | [] => s
  else s

def sendTextFrame (s : State B X) (frame : List B) : State B X :=
  if s.state != .connected then s
  else ({ s with sendQueue := s.sendQueue ++ [frame] }.emit (.accepted frame)).startSending

def startReading (s : State B X) : State B X :=
  if s.state != .connected then s else { s with reads := s.reads + 1 }.emit .asyncRead

def call (s : State B X) : Call B → State B X
  | .initiateConnect => s.initiateConnect
  | .sendTextFrame frame => s.sendTextFrame frame

def calls (s : State B X) (cs : List (Call B)) : State B X := cs.foldl call s

def start (s : State B X) (onStart : List (Call B)) : State B X :=
  match s.state with
  | .notStarted => s.calls onStart
  | .connecting | .connected | .closing | .finished => s.emit .startAsserted

def eventTransportUp (s : State B X) (d : Derived B X) : State B X :=
  (({ s with state := .connected }.emit .transportUp).calls d.onTransportUp).startSending.startReading

def eventTransportError (s : State B X) (d : Derived B X) (ep : ExceptionPtr X) : State B X :=
  match s.state with
  | .connecting | .connected | .closing =>
    ({ s with state := .finished }.emit (.transportError ep)).calls d.onTransportError
  | .notStarted | .finished => s

def handleConnect (s : State B X) (d : Derived B X) : ErrorCode → State B X
  | some ec => s.eventTransportError d (.systemError ec)
  | none => s.eventTransportUp d

def popFront (s : State B X) : State B X := { s with sendQueue := s.sendQueue.tail }.emit (.popFront s.sendQueue.head?)

def handleSend (s : State B X) (d : Derived B X) (ec : ErrorCode) : State B X :=
  let s := { s with sendState := .notSending }.popFront
  match ec with
  | some ec => s.eventTransportError d (.systemError ec)
  | none => s.startSending

/-- The first part of the `try` block: `on_text_frame` with the bytes, if `websock_.text()` holds. -/
def deliver (s : State B X) (d : Derived B X) (text : Bool) (bytesTransferred : ℕ) : State B X :=
  if text then (s.emit (.textFrame (s.rxBuffer.take bytesTransferred))).calls d.onTextFrame else s

def handleRead (s : State B X) (d : Derived B X) (text : Bool) (ec : ErrorCode) (bytesTransferred : ℕ) : State B X :=
  match ec with
  | some ec => s.eventTransportError d (.systemError ec)
  | none =>
    let s := s.deliver d text bytesTransferred
    match if text then d.throws else none with
    | some x => s.eventTransportError d (.thrown x)
    | none => { s with rxBuffer := s.rxBuffer.drop bytesTransferred }.startReading

end State

inductive Action (B X : Type*)
  | start (onStart : List (Call B))
  /-- The derived class calls on its own account. -/
  | call (c : Call B)
  | connected (ec : ErrorCode) (d : Derived B X)
  | wrote (ec : ErrorCode) (d : Derived B X)
  /-- A read ends with the bytes it has put into the buffer; `text` is what `websock_.text()` answers. -/
  | read (ec : ErrorCode) (bytes : List B) (text : Bool) (d : Derived B X)

def step (s : State B X) : Action B X → Option (State B X)
  | .start onStart => some (s.start onStart)
  | .call c => some (s.call c)
  | .connected ec d =>
    if 0 < s.connects then some (({ s with connects := s.connects - 1 }.emit (.connectDone ec)).handleConnect d ec)
    else none
  | .wrote ec d =>
    match s.writes with
    | _ :: writes => some (({ s with writes := writes }.emit (.writeDone ec)).handleSend d ec)
    | [] => none
  | .read ec bytes text d =>
    if 0 < s.reads then
      some (({ s with reads := s.reads - 1, rxBuffer := s.rxBuffer ++ bytes }.emit (.readDone ec)).handleRead d text ec
        bytes.length)
    else none

/-- The connect operation invokes its handler once. -/
def machine : Machine (State B X) (Action B X) := ⟨fun s => s = State.init,step⟩

/-! ## What the log says -/

def Event.accepted? : Event B X → Option (List B)
  | .accepted frame => some frame
  | _ => none

def Event.asyncWrite? : Event B X → Option (List B)
  | .asyncWrite frame => some frame
  | _ => none

def Event.writeDone? : Event B X → Option ErrorCode
  | .writeDone ec => some ec
  | _ => none

def Event.asyncRead? : Event B X → Option Unit
  | .asyncRead => some ()
  | _ => none

def Event.readDone? : Event B X → Option ErrorCode
  | .readDone ec => some ec
  | _ => none

def accepted (log : List (Event B X)) : List (List B) := log.filterMap Event.accepted?

def written (log : List (Event B X)) : List (List B) := log.filterMap Event.asyncWrite?

def OutstandingWrites (log : List (Event B X)) (n : ℕ) : Prop :=
  (log.filterMap Event.asyncWrite?).length = (log.filterMap Event.writeDone?).length + n

def OutstandingReads (log : List (Event B X)) (n : ℕ) : Prop :=
  (log.filterMap Event.asyncRead?).length = (log.filterMap Event.readDone?).length + n

def Errored (log : List (Event B X)) : Prop := ∃ ep, .transportError ep ∈ log

end WssTransport
end BeastWebsocketEcho
