import BeastWebsocketEcho.Machine
import BeastWebsocketEcho.Chronicle
import BeastWebsocketEcho.Net
import BeastWebsocketEcho.Operation

/-!
# The chat state and its coroutines

`runState` starts the coroutine `run_state`, `resumeAccept` and `resumeRead` resume it
where it awaits the handshake or the next message, and `notifyError` is the coroutine
`notify_error` up to its only suspension. Each returns the calls it makes on the
stream, the queue and the callbacks. The chat machine lets `notify_error` and the
completions of the stream fall in any order between them.
-/

namespace BeastWebsocketEcho
namespace ChatState

inductive Stage
  | initialState | handshaking | chatting | exitState
  deriving DecidableEq, Repr

structure Base where
  ec : ErrorCode
  state : Stage
  deriving DecidableEq

inductive Call
  | asyncAccept
  | asyncRead
  | cancelLowestLayer
  | txqueueStop
  | asyncClose (reason : String)
  | onConnected
  | onMessage (message : String)
  deriving DecidableEq

/-- Where `run_state` is. While receiving it owns the buffer of `websocket_rx_state`. -/
inductive Run
  | notStarted
  | accepting
  | receiving (rxbuffer : List Char)
  | returned
  | threw (e : Error)
  deriving DecidableEq

/-- `notify_error`, whose argument the assertion at its entry makes a real error. -/
def notifyError (b : Base) (nec : Error) : Base × List Call :=
  if b.ec.isSome then (b,[])
  else
    let b := { b with ec := some nec }
    match b.state with
    | .initialState => (b,[])
    | .handshaking => (b,[.cancelLowestLayer,.txqueueStop])
    | .chatting => (b,[.txqueueStop,.asyncClose "shutting down"])
    | .exitState => (b,[])

def runState (b : Base) : Base × Run × List Call :=
  ({ b with state := .handshaking },.accepting,[.asyncAccept])

/-- The handler of `run_state` sets `exit_state` and throws on. -/
def rethrow (b : Base) (e : Error) : Base × Run × List Call := ({ b with state := .exitState },.threw e,[])

def resumeAccept (b : Base) (result : ErrorCode) : Base × Run × List Call :=
  match result with
  | some e => rethrow b e
  | none =>
    match b.ec with
    | some e => rethrow b e
    | none => ({ b with state := .chatting },.receiving [],[.onConnected,.asyncRead])

/-- One turn of the loop of `websocket_rx_state`, after a read that appended to the buffer. -/
def receive (rxbuffer : List Char) : Run × List Call :=
  let message := String.ofList rxbuffer
  (.receiving (rxbuffer.drop message.length),[.onMessage message,.asyncRead])

/-- `websocket_rx_state` swallows the error of a read, and `run_state` then returns. -/
def resumeRead (b : Base) (rxbuffer : List Char) (result : Except Error (List Char)) : Base × Run × List Call :=
  match result with
  | .ok bytes => (b,receive (rxbuffer ++ bytes))
  | .error _ => ({ b with state := .exitState },.returned,[])

inductive Event
  | notified (nec : Error) (state : Stage)
  | accepted (result : ErrorCode)
  | received (bytes : List Char)
  | called (c : Call)
  deriving DecidableEq

/-- The chat state with the operations of its stream that are in flight. `closing` counts the
`notify_error` coroutines that await `async_close`. -/
structure State where
  base : Base
  run : Run
  accept : Option (Status ErrorCode)
  read : Option (Status (Except Error (List Char)))
  closing : ℕ
  log : List Event

namespace State

def init : State := ⟨⟨none,.initialState⟩,.notStarted,none,none,0,[]⟩

def carry (s : State) : Call → State
  | .asyncAccept => { s with accept := some .pending }
  | .asyncRead => { s with read := some .pending }
  | .cancelLowestLayer => { s with accept := s.accept.map Status.cancel, read := s.read.map Status.cancel }
  | .asyncClose _ => { s with closing := s.closing + 1 }
  | _ => s

def perform (s : State) (c : Call) : State :=
  let t := s.carry c
  { t with log := t.log ++ [.called c] }

def performAll (s : State) (cs : List Call) : State := cs.foldl perform s

/-- `run_state` goes on to its next suspension or to its end. -/
def proceed (s : State) (next : Base × Run × List Call) : State × List Call :=
  ({ s with base := next.1, run := next.2.1 }.performAll next.2.2,next.2.2)

def notify (s : State) (nec : Error) : State × List Call :=
  let r := notifyError s.base nec
  ({ s with base := r.1, log := s.log ++ [Event.notified nec s.base.state] }.performAll r.2,r.2)

end State

inductive Action
  | start
  | acceptCompletes (result : ErrorCode)
  | resumeAccept
  | readCompletes (result : Except Error (List Char))
  | resumeRead
  | notify (nec : Error)
  | closeCompletes

def readFailed : Except Error (List Char) → Bool
  | .ok _ => false
  | .error _ => true

def step (s : State) : Action → Option (State × List Call)
  | .start =>
    match s.run with
    | .notStarted => some (s.proceed (runState s.base))
    | _ => none
  | .acceptCompletes result =>
    (s.accept.bind (Status.complete Option.isSome result)).map fun st => ({ s with accept := some st },[])
  | .resumeAccept =>
    match s.run, s.accept with
    | .accepting, some (.done result) =>
      some ({ s with accept := none, log := s.log ++ [Event.accepted result] }.proceed
        (ChatState.resumeAccept s.base result))
    | _, _ => none
  | .readCompletes result =>
    (s.read.bind (Status.complete readFailed result)).map fun st => ({ s with read := some st },[])
  | .resumeRead =>
    match s.run, s.read with
    | .receiving rxbuffer, some (.done result) =>
      let events := match result with
        | .ok bytes => [Event.received bytes]
        | .error _ => []
      some ({ s with read := none, log := s.log ++ events }.proceed (ChatState.resumeRead s.base rxbuffer result))
    | _, _ => none
  | .notify nec => some (s.notify nec)
  | .closeCompletes => if 0 < s.closing then some ({ s with closing := s.closing - 1 },[]) else none

def machine : Machine State Action where
  start s := s = State.init
  step s a := (step s a).map Prod.fst

end ChatState
end BeastWebsocketEcho
