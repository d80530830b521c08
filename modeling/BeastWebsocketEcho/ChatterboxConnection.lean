import BeastWebsocketEcho.Machine
import BeastWebsocketEcho.Net
import BeastWebsocketEcho.Operation

/-!
# The chatterbox connection

`connection_impl` of the chatterbox client: it connects, makes its handshake, echoes what it
reads and sends what it is given, until it is stopped. Messages are lists of bytes `B`. An
assertion is logged with its outcome, and the function goes on.
-/

namespace BeastWebsocketEcho
namespace ChatterboxConnection

variable {B : Type*}

inductive StateType
  | handshaking | chatting
  deriving DecidableEq, Repr

inductive SendingState
  | sendIdle | sending
  deriving DecidableEq, Repr

inductive Task (B : Type*)
  | handleRun
  | handleStop
  | handleSend (msg : List B)
  deriving DecidableEq

inductive Assertion
  | rxChatting | rxNoError | txIdle | txNoError | txNonEmpty
  deriving DecidableEq, Repr

/-- The message written is `none` when the front of an empty queue was taken. -/
inductive Event (B : Type*)
  | run
  | stop
  | connectDone (ec : ErrorCode)
  | handshakeDone (ec : ErrorCode)
  | readDone (ec : ErrorCode)
  | writeDone (ec : ErrorCode)
  | closeDone (ec : ErrorCode)
  | asyncConnect
  | asyncHandshake
  | asyncRead
  | asyncWrite (msg : Option (List B))
  | asyncClose
  /-- `cancel` on the socket. -/
  | cancel
  | asserted (a : Assertion) (holds : Bool)
  deriving DecidableEq

structure State (B : Type*) where
  rxbuffer : List B
  txQueue : List (List B)
  ec : ErrorCode
  state : StateType
  sendingState : SendingState
  tasks : List (Task B)
  connects : List (Status ErrorCode)
  handshakes : List (Status ErrorCode)
  reads : List (Status (Except Error (List B)))
  writes : List (Status ErrorCode)
  closes : List (Status ErrorCode)
  log : List (Event B)

namespace State

def init : State B := ⟨[],[],none,.handshaking,.sendIdle,[],[],[],[],[],[],[]⟩

def emit (s : State B) (e : Event B) : State B := { s with log := s.log ++ [e] }

def handleRun (s : State B) : State B :=
  { s.emit .run with connects := s.connects ++ [Status.pending] }.emit .asyncConnect

def initiateHandshake (s : State B) : State B :=
  { s with handshakes := s.handshakes ++ [Status.pending] }.emit .asyncHandshake

def handleConnect (s : State B) (ec : ErrorCode) : State B :=
  let s := s.emit (.connectDone ec)
  if ec.isNone then s.initiateHandshake else s

def initiateRx (s : State B) : State B :=
  let s := (s.emit (.asserted .rxChatting (s.state == .chatting))).emit (.asserted .rxNoError s.ec.isNone)
  { s with reads := s.reads ++ [Status.pending] }.emit .asyncRead

def initiateTx (s : State B) : State B :=
  let s := ((s.emit (.asserted .txIdle (s.sendingState == .sendIdle))).emit (.asserted .txNoError s.ec.isNone)).emit
    (.asserted .txNonEmpty (!s.txQueue.isEmpty))
  { s with sendingState := .sending, writes := s.writes ++ [Status.pending] }.emit (.asyncWrite s.txQueue.head?)

def maybeSendNext (s : State B) : State B :=
  if s.ec.isSome || s.state != .chatting || s.sendingState == .sending || s.txQueue.isEmpty then s
  else s.initiateTx

def handleHandshake (s : State B) (ec : ErrorCode) : State B :=
  let s := s.emit (.handshakeDone ec)
  if s.ec.isSome then s
  else if ec.isSome then s
  else { s with state := .chatting }.initiateRx.maybeSendNext

def handleSend (s : State B) (msg : List B) : State B := { s with txQueue := s.txQueue ++ [msg] }.maybeSendNext

def handleStop (s : State B) : State B :=
  let s := { s.emit .stop with ec := some .operationAborted }
  match s.state with
  | .chatting => { s with closes := s.closes ++ [Status.pending] }.emit .asyncClose
  | .handshaking => { s with
      connects := s.connects.map Status.cancel
      handshakes := s.handshakes.map Status.cancel
      reads := s.reads.map Status.cancel
      writes := s.writes.map Status.cancel }.emit .cancel

/-- `run`, `stop` and `send` dispatch: the task is executed at once on the executor, and waits elsewhere. -/
def execute (s : State B) : Task B → State B
  | .handleRun => s.handleRun
  | .handleStop => s.handleStop
  | .handleSend msg => s.handleSend msg

def dispatch (s : State B) (task : Task B) (inl : Bool) : State B :=
  if inl then s.execute task else { s with tasks := s.tasks ++ [task] }

def handleRx (s : State B) (result : Except Error (List B)) (inl : Bool) : State B :=
  match result with
  | .error ec => s.emit (.readDone (some ec))
  | .ok bytes =>
    let message := s.rxbuffer ++ bytes
    ({ s.emit (.readDone none) with rxbuffer := message.drop message.length }.initiateRx).dispatch (.handleSend message)
      inl

def handleTx (s : State B) (ec : ErrorCode) : State B :=
  let s := s.emit (.writeDone ec)
  if ec.isSome then s else { s with txQueue := s.txQueue.tail, sendingState := .sendIdle }.maybeSendNext

end State

def readFailed : Except Error (List B) → Bool
  | .ok _ => false
  | .error _ => true

inductive Action (B : Type*)
  | dispatch (task : Task B) (inl : Bool)
  | runTask (i : ℕ)
  | connectCompletes (i : ℕ) (ec : ErrorCode)
  | handshakeCompletes (i : ℕ) (ec : ErrorCode)
  | readCompletes (i : ℕ) (result : Except Error (List B))
  | writeCompletes (i : ℕ) (ec : ErrorCode)
  | closeCompletes (i : ℕ) (ec : ErrorCode)
  | connected (i : ℕ)
  | handshook (i : ℕ)
  | read (i : ℕ) (inl : Bool)
  | written (i : ℕ)
  | closed (i : ℕ)

def step (s : State B) : Action B → Option (State B)
  | .dispatch task inl => some (s.dispatch task inl)
  | .runTask i => (s.tasks[i]?).map { s with tasks := s.tasks.eraseIdx i }.execute
  | .connectCompletes i ec =>
    (completeAt Option.isSome ec s.connects i).map fun ops => { s with connects := ops }
  | .handshakeCompletes i ec =>
    (completeAt Option.isSome ec s.handshakes i).map fun ops => { s with handshakes := ops }
  | .readCompletes i r => (completeAt readFailed r s.reads i).map fun ops => { s with reads := ops }
  | .writeCompletes i ec => (completeAt Option.isSome ec s.writes i).map fun ops => { s with writes := ops }
  | .closeCompletes i ec => (completeAt Option.isSome ec s.closes i).map fun ops => { s with closes := ops }
  | .connected i => (takeAt s.connects i).map fun x => { s with connects := x.2 }.handleConnect x.1
  | .handshook i => (takeAt s.handshakes i).map fun x => { s with handshakes := x.2 }.handleHandshake x.1
  | .read i inl => (takeAt s.reads i).map fun x => { s with reads := x.2 }.handleRx x.1 inl
  | .written i => (takeAt s.writes i).map fun x => { s with writes := x.2 }.handleTx x.1
  | .closed i => (takeAt s.closes i).map fun x => { s with closes := x.2 }.emit (.closeDone x.1)

def machine : Machine (State B) (Action B) where
  start s := s = State.init
  step := step

end ChatterboxConnection
end BeastWebsocketEcho
