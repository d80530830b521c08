import BeastWebsocketEcho.ChatServer
import BeastWebsocketEcho.EchoConnection

/-!
# The echo server

The server knows its connections through `connections_`, a map of weak pointers keyed by the
remote endpoint, and refers to them here by their number. How long a connection lives is
decided by its own operations and function objects, so the machine runs the connections too.
-/

namespace BeastWebsocketEcho
namespace EchoServer

open ChatServer (Endpoint AcceptResult acceptFailed assign greetings)

inductive Task
  | handleRun | handleStop
  deriving DecidableEq

/-- `handledStop alive` is the end of `handle_stop`, with the connections that are alive then. -/
inductive Event
  | run
  | handledStop (alive : List ℕ)
  | started (conn : ℕ)
  | stopped (conn : ℕ)
  | threw (e : Error)
  deriving DecidableEq

structure State where
  ec : ErrorCode
  connections : List (Endpoint × ℕ)
  accepts : List (Status AcceptResult)
  tasks : List Task
  conns : List EchoConnection.State
  log : List Event

/-- A new connection, on which `handle_accept` calls `run` and then `send` for every greeting. -/
def welcome (visitors : ℕ) (ep : Endpoint) (inl : Bool) : EchoConnection.State :=
  (greetings visitors ep).foldl (fun c msg => c.dispatchSend msg inl) (EchoConnection.State.constructed.run inl)

namespace State

def init : State := ⟨none,[],[],[],[],[]⟩

def emit (s : State) (e : Event) : State := { s with log := s.log ++ [e] }

/-- `weak_ptr::lock` finds the connection. -/
def alive (s : State) (i : ℕ) : Bool := (s.conns[i]?).any EchoConnection.State.alive

def initiateAccept (s : State) : State := { s with accepts := s.accepts ++ [.pending] }

def handleRun (s : State) : State := { s with ec := none }.initiateAccept

def startConnection (s : State) (ep : Endpoint) (inl : Bool) : State :=
  let connections := assign s.connections ep s.conns.length
  { s with
    connections := connections
    conns := s.conns ++ [welcome connections.length ep inl] }.emit (.started s.conns.length)

def handleAccept (s : State) (result : AcceptResult) (inl : Bool) : State :=
  if s.ec.isSome then s
  else match result with
    | .error .connectionAborted => s.initiateAccept
    | .error .operationAborted => s
    | .error _ => s
    | .ok (.error e) => s.initiateAccept.emit (.threw e)
    | .ok (.ok ep) => s.initiateAccept.startConnection ep inl

/-- One turn of the loop of `handle_stop`. -/
def stopOne (s : State) (i : ℕ) (inl : Bool) : State :=
  if s.alive i then
    { s with conns := s.conns.modify i fun c => c.stop inl }.emit (.stopped i)
  else s

def stopAll (s : State) (cache : List (Endpoint × ℕ)) (inl : Bool) : State :=
  cache.foldl (fun s x => s.stopOne x.2 inl) s

def living (s : State) : List ℕ := (List.range s.conns.length).filter s.alive

def handleStop (s : State) (inl : Bool) : State :=
  let s := { s with ec := some .operationAborted, accepts := s.accepts.map Status.cancel }
  let s := s.stopAll s.connections inl
  { s with connections := [] }.emit (.handledStop s.living)

def runTask (s : State) (inl : Bool) : Task → State
  | .handleRun => s.handleRun
  | .handleStop => s.handleStop inl

/-- The dispatch of `run` and `stop`, which runs the task at once or leaves it for later. -/
def submit (s : State) (task : Task) (onExecutor inl : Bool) : State :=
  if onExecutor then s.runTask inl task else { s with tasks := s.tasks ++ [task] }

end State

/-- `onExecutor` says that `run` or `stop` was called on the executor of the acceptor, and `inl`
that what is dispatched to a connection runs at once. -/
inductive Action
  | run (onExecutor : Bool)
  | stop (onExecutor inl : Bool)
  | runTask (i : ℕ) (inl : Bool)
  | acceptCompletes (i : ℕ) (result : AcceptResult)
  | accepted (i : ℕ) (inl : Bool)
  | connection (i : ℕ) (a : EchoConnection.Action)

/-- Nobody but the server calls `send` and `stop` of a connection. -/
def isCall : EchoConnection.Action → Bool
  | .send _ | .stop => true
  | _ => false

def step (s : State) : Action → Option State
  | .run onExecutor => some ((s.emit .run).submit .handleRun onExecutor false)
  | .stop onExecutor inl => some (s.submit .handleStop onExecutor inl)
  | .runTask i inl => (s.tasks[i]?).map ({ s with tasks := s.tasks.eraseIdx i }.runTask inl)
  | .acceptCompletes i result =>
    ((s.accepts[i]?).bind (Status.complete acceptFailed result)).map fun st =>
      { s with accepts := s.accepts.set i st }
  | .accepted i inl =>
    (EchoConnection.result s.accepts i).map fun result =>
      { s with accepts := s.accepts.eraseIdx i }.handleAccept result inl
  | .connection i a =>
    if isCall a then none
    else (s.conns[i]?).bind fun c => (EchoConnection.step c a).map fun d => { s with conns := s.conns.set i d }

def machine : Machine State Action where
  start s := s = State.init
  step := step

end EchoServer
end BeastWebsocketEcho
