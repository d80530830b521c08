import BeastWebsocketEcho.Machine
import BeastWebsocketEcho.Net
import BeastWebsocketEcho.Operation

/-!
# The connection of the echo server

The handlers of `connection_impl`, each as a function on the state. An operation that
was started stays in its list until its completion is handled, and what is dispatched
waits in `tasks`, to be run in any order. An assertion that does not hold is logged and
the handler goes on.
-/

namespace BeastWebsocketEcho
namespace EchoConnection

inductive Stage
  | handshaking | chatting | closing
  deriving DecidableEq, Repr

inductive SendingState
  | sendIdle | sending
  deriving DecidableEq, Repr

structure CloseReason where
  code : ℕ
  reason : String
  deriving DecidableEq

def goingAway : ℕ := 1001

inductive Task
  | handleRun | handleStop | handleSend (msg : String)
  deriving DecidableEq

/-- The calls on the stream and on the session timer. The message written is `none` when the front
of an empty queue was taken. -/
inductive Call
  | asyncAccept
  | asyncRead
  | asyncWrite (msg : Option String)
  | expiresAfter (delta : ℤ)
  | asyncWait
  | cancelTimer
  | closeSocket
  | asyncClose (reason : CloseReason)
  deriving DecidableEq

inductive Assertion
  | rxChatting | rxNoError | txIdle | txNoError | txNonEmpty | timeRemaining
  deriving DecidableEq, Repr

inductive Handler
  | run
  | accept (ec : ErrorCode)
  | stop
  | rx (result : Except Error (List Char))
  | send (msg : String)
  | tx (ec : ErrorCode)
  | timer
  deriving DecidableEq

inductive Event
  | entered (h : Handler)
  | asserted (a : Assertion) (holds : Bool)
  | called (c : Call)
  deriving DecidableEq

structure State where
  timeRemaining : ℤ
  rxbuffer : List Char
  txQueue : List String
  ec : ErrorCode
  state : Stage
  sendingState : SendingState
  tasks : List Task
  accepts : List (Status ErrorCode)
  reads : List (Status (Except Error (List Char)))
  writes : List (Option String × Status ErrorCode)
  waits : List (Status ErrorCode)
  closes : List (Status ErrorCode)
  log : List Event

namespace State

def init : State := ⟨30,[],[],none,.handshaking,.sendIdle,[.handleRun],[],[],[],[],[],[]⟩

def emit (s : State) (e : Event) : State := { s with log := s.log ++ [e] }

def assert (s : State) (a : Assertion) (holds : Bool) : State := s.emit (.asserted a holds)

def perform (s : State) : Call → State
  | .asyncAccept => { s with accepts := s.accepts ++ [.pending] }
  | .asyncRead => { s with reads := s.reads ++ [.pending] }
  | .asyncWrite msg => { s with writes := s.writes ++ [(msg,.pending)] }
  | .expiresAfter _ => { s with waits := s.waits.map Status.cancel }
  | .asyncWait => { s with waits := s.waits ++ [.pending] }
  | .cancelTimer => { s with waits := s.waits.map Status.cancel }
  | .closeSocket => { s with
      accepts := s.accepts.map Status.cancel
      reads := s.reads.map Status.cancel
      writes := s.writes.map fun w => (w.1,w.2.cancel) }
  | .asyncClose _ => { s with closes := s.closes ++ [.pending] }

def call (s : State) (c : Call) : State := (s.perform c).emit (.called c)

def initiateRx (s : State) : State :=
  ((s.assert .rxChatting (s.state == .chatting)).assert .rxNoError s.ec.isNone).call .asyncRead

def initiateTx (s : State) : State :=
  let checked := ((s.assert .txIdle (s.sendingState == .sendIdle)).assert .txNoError s.ec.isNone).assert
    .txNonEmpty (!s.txQueue.isEmpty)
  { checked with sendingState := .sending }.call (.asyncWrite s.txQueue.head?)

def maybeSendNext (s : State) : State :=
  if s.ec.isSome || s.state != .chatting || s.sendingState == .sending || s.txQueue.isEmpty then s
  else s.initiateTx

def handleSend (s : State) (msg : String) : State :=
  let entered := s.emit (.entered (.send msg))
  { entered with txQueue := entered.txQueue ++ [msg] }.maybeSendNext

/-- `net::dispatch`, which runs the task at once or leaves it for later. -/
def dispatchSend (s : State) (msg : String) (inl : Bool) : State :=
  if inl then s.handleSend msg else { s with tasks := s.tasks ++ [.handleSend msg] }

def initiateTimer (s : State) : State :=
  let checked := s.assert .timeRemaining (s.timeRemaining != 0)
  let delta := min s.timeRemaining 5
  ({ checked with timeRemaining := s.timeRemaining - delta }.call (.expiresAfter delta)).call .asyncWait

def handleRun (s : State) : State := ((s.emit (.entered .run)).call .asyncAccept).initiateTimer

def handleAccept (s : State) (ec : ErrorCode) : State :=
  if s.ec.isSome then s
  else match ec with
    | some _ => s
    | none => { s with state := .chatting }.initiateRx.maybeSendNext

def handleStop (s : State) (reason : CloseReason) : State :=
  let s := { s.emit (.entered .stop) with ec := some .operationAborted }.call .cancelTimer
  let s := match s.state with
    | .handshaking => s.call .closeSocket
    | .chatting => s.call (.asyncClose reason)
    | .closing => s
  { s with state := .closing }

def handleRx (s : State) (result : Except Error (List Char)) (inl : Bool) : State :=
  let s := s.emit (.entered (.rx result))
  match result with
  | .error _ => s
  | .ok bytes =>
    let message := String.ofList (s.rxbuffer ++ bytes)
    ({ s with rxbuffer := (s.rxbuffer ++ bytes).drop message.length }.initiateRx).dispatchSend message inl

def handleTx (s : State) (ec : ErrorCode) : State :=
  let s := s.emit (.entered (.tx ec))
  match ec with
  | some _ => s
  | none => { s with txQueue := s.txQueue.tail, sendingState := .sendIdle }.maybeSendNext

def handleTimer (s : State) : State :=
  let s := s.emit (.entered .timer)
  if s.ec.isSome then s
  else if s.timeRemaining != 0 then
    (s.handleSend (toString s.timeRemaining ++ " seconds remaining")).initiateTimer
  else s.handleStop ⟨goingAway,"session timed out"⟩

/-- The completion of the accept, with which `handle_accept` is entered. -/
def accepted (s : State) (ec : ErrorCode) : State := (s.emit (.entered (.accept ec))).handleAccept ec

/-- The completion of a wait, which calls `handle_timer` only if it succeeded. -/
def waited (s : State) (ec : ErrorCode) : State := if ec.isSome then s else s.handleTimer

def runTask (s : State) : Task → State
  | .handleRun => s.handleRun
  | .handleStop => s.handleStop ⟨goingAway,""⟩
  | .handleSend msg => s.handleSend msg

def constructed : State := { init with tasks := [] }

def run (s : State) (inl : Bool) : State :=
  if inl then s.handleRun else { s with tasks := s.tasks ++ [.handleRun] }

def stop (s : State) (inl : Bool) : State :=
  if inl then s.handleStop ⟨goingAway,""⟩ else { s with tasks := s.tasks ++ [.handleStop] }

/-- A function object or the handler of an operation still holds the connection. -/
def alive (s : State) : Bool :=
  !(s.tasks.isEmpty && s.accepts.isEmpty && s.reads.isEmpty && s.writes.isEmpty && s.waits.isEmpty &&
    s.closes.isEmpty)

end State

def readFailed : Except Error (List Char) → Bool
  | .ok _ => false
  | .error _ => true

/-- A wait succeeds unless it was cancelled before, and then it fails. -/
def completeWait (ec : ErrorCode) : Status ErrorCode → Option (Status ErrorCode)
  | .pending => if ec.isNone then some (.done ec) else none
  | .cancelled => if ec.isSome then some (.done ec) else none
  | .done _ => none

inductive Action
  | send (msg : String)
  | stop
  | runTask (i : ℕ)
  | acceptCompletes (i : ℕ) (ec : ErrorCode)
  | readCompletes (i : ℕ) (result : Except Error (List Char))
  | writeCompletes (i : ℕ) (ec : ErrorCode)
  | waitCompletes (i : ℕ) (ec : ErrorCode)
  | closeCompletes (i : ℕ) (ec : ErrorCode)
  | accepted (i : ℕ)
  | read (i : ℕ) (inl : Bool)
  | written (i : ℕ)
  | waited (i : ℕ)
  | closed (i : ℕ)

/-- The result of the operation at place `i`, if its completion is queued. -/
def result {R : Type} (ops : List (Status R)) (i : ℕ) : Option R :=
  match ops[i]? with
  | some (.done r) => some r
  | _ => none

def step (s : State) : Action → Option State
  | .send msg => some { s with tasks := s.tasks ++ [.handleSend msg] }
  | .stop => some { s with tasks := s.tasks ++ [.handleStop] }
  | .runTask i => (s.tasks[i]?).map { s with tasks := s.tasks.eraseIdx i }.runTask
  | .acceptCompletes i ec =>
    ((s.accepts[i]?).bind (Status.complete Option.isSome ec)).map fun st =>
      { s with accepts := s.accepts.set i st }
  | .readCompletes i r =>
    ((s.reads[i]?).bind (Status.complete readFailed r)).map fun st => { s with reads := s.reads.set i st }
  | .writeCompletes i ec =>
    (s.writes[i]?).bind fun w => (w.2.complete Option.isSome ec).map fun st =>
      { s with writes := s.writes.set i (w.1,st) }
  | .waitCompletes i ec =>
    ((s.waits[i]?).bind (completeWait ec)).map fun st => { s with waits := s.waits.set i st }
  | .closeCompletes i ec =>
    ((s.closes[i]?).bind (Status.complete Option.isSome ec)).map fun st => { s with closes := s.closes.set i st }
  | .accepted i => (result s.accepts i).map { s with accepts := s.accepts.eraseIdx i }.accepted
  | .read i inl =>
    (result s.reads i).map fun r => { s with reads := s.reads.eraseIdx i }.handleRx r inl
  | .written i =>
    (result (s.writes.map Prod.snd) i).map { s with writes := s.writes.eraseIdx i }.handleTx
  | .waited i => (result s.waits i).map { s with waits := s.waits.eraseIdx i }.waited
  | .closed i => (result s.closes i).map fun _ => { s with closes := s.closes.eraseIdx i }

def machine : Machine State Action where
  start s := s = State.init
  step := step

end EchoConnection
end BeastWebsocketEcho
