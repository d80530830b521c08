import BeastWebsocketEcho.Net
import BeastWebsocketEcho.Operation
import BeastWebsocketEcho.StopRegister

/-!
# Connecting the exchange client

`connect_transport_op` and its handler in `notify_connect`, on the strand of the connection.
The operation is at one of its four asynchronous steps, whose completion is queued before it
is resumed. `start` is called once. A callback that outlives the operation it cancels would
be logged as dangling.
-/

namespace BeastWebsocketEcho
namespace FmexConnect

inductive Stage
  | resolve | connect | tlsHandshake | websocketHandshake
  deriving DecidableEq, Repr

inductive Callback
  | cancelResolver | cancelStream | initiateClose
  deriving DecidableEq, Repr

/-- Whether a callback cancels the step: the resolver has its own `cancel`, the others are operations
on the TCP stream. -/
def Callback.cancels : Callback → Stage → Bool
  | .cancelResolver, .resolve => true
  | .cancelResolver, _ => false
  | .cancelStream, .resolve => false
  | .cancelStream, _ => true
  | .initiateClose, _ => false

inductive Task
  | handleConnectCommand | notifyAll
  deriving DecidableEq, Repr

inductive Event
  | started
  | stopped
  | initiated (stage : Stage)
  | connectHandler (ec : ErrorCode)
  | onError (e : Error)
  | transportUp
  | enteredReadState
  | closeInitiated
  | dangling (c : Callback)
  deriving DecidableEq

/-- `state_data`, with the outstanding step. -/
structure Op where
  stage : Stage
  status : Status ErrorCode
  token : StopToken

structure State where
  startCalled : Bool
  tasks : List Task
  register : StopRegister Callback
  op : Option Op
  token : StopToken
  log : List Event

namespace State

def init : State := ⟨false,[],StopRegister.empty,none,StopToken.null,[]⟩

def emit (s : State) (e : Event) : State := { s with log := s.log ++ [e] }

/-- `stop_token::reset` of a token. -/
def drop (s : State) (t : StopToken) : State :=
  if t.id = 0 then s else { s with register := s.register.remove t.id }

def initiate (s : State) (stage : Stage) (token : StopToken) : State :=
  { s with op := some ⟨stage,.pending,token⟩ }.emit (.initiated stage)

def handleConnectCommand (s : State) : State :=
  let added := s.register.add .cancelResolver
  ({ s with register := added.2 }.emit .started).initiate .resolve added.1

def handler (s : State) (ec : ErrorCode) : State :=
  let s := s.emit (.connectHandler ec)
  match ec with
  | some e => s.emit (.onError e)
  | none =>
    let s := s.emit .transportUp
    let added := s.register.add .initiateClose
    ({ s with register := added.2, token := added.1 }.drop s.token).emit .enteredReadState

/-- `self.complete`: the handler runs, and the operation is destroyed. -/
def complete (s : State) (op : Op) (ec : ErrorCode) : State :=
  { s.handler ec with op := none }.drop op.token

/-- `operator()` with the result of the outstanding step. `hostName` is what setting the TLS host name
comes to: `none` if it succeeds, else the code that OpenSSL reports. -/
def resume (s : State) (op : Op) (ec : ErrorCode) (hostName : Option ErrorCode) : State :=
  match ec with
  | some e => s.complete op (some e)
  | none =>
    match op.stage with
    | .resolve =>
      let added := s.register.add .cancelStream
      ({ s with register := added.2 }.drop op.token).initiate .connect added.1
    | .connect =>
      match hostName with
      | some code => s.complete op code
      | none => s.initiate .tlsHandshake op.token
    | .tlsHandshake => s.initiate .websocketHandshake op.token
    | .websocketHandshake => (s.drop op.token).complete { op with token := op.token.emptied } none

def runCallback (s : State) (c : Callback) : State :=
  match c, s.op with
  | .initiateClose, _ => s.emit .closeInitiated
  | c, some op => { s with op := some (if c.cancels op.stage then { op with status := op.status.cancel } else op) }
  | c, none => s.emit (.dangling c)

def notifyAll (s : State) : State :=
  let taken := s.register.takeAll
  taken.1.foldl runCallback ({ s with register := taken.2 }.emit .stopped)

def runTask (s : State) : Task → State
  | .handleConnectCommand => s.handleConnectCommand
  | .notifyAll => s.notifyAll

end State

inductive Action
  | start
  | stop
  | runTask (i : ℕ)
  | completes (ec : ErrorCode)
  | resume (hostName : Option ErrorCode)

def step (s : State) : Action → Option State
  | .start =>
    if s.startCalled then none
    else some { s with startCalled := true, tasks := s.tasks ++ [.handleConnectCommand] }
  | .stop => some { s with tasks := s.tasks ++ [.notifyAll] }
  | .runTask i => (s.tasks[i]?).map { s with tasks := s.tasks.eraseIdx i }.runTask
  | .completes ec =>
    s.op.bind fun op => (op.status.complete Option.isSome ec).map fun status =>
      { s with op := some { op with status := status } }
  | .resume hostName =>
    s.op.bind fun op =>
      match op.status with
      | .done ec => some (s.resume op ec hostName)
      | _ => none

def machine : Machine State Action where
  start s := s = State.init
  step := step

end FmexConnect
end BeastWebsocketEcho
