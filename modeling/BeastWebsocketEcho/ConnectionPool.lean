import BeastWebsocketEcho.ChatServer
import BeastWebsocketEcho.ChatterboxConnection
import BeastWebsocketEcho.Timer

/-!
# The pool of chatterbox connections

`connection_pool` makes its connections, each of which runs on a strand of its own. The map
`connections_` refers to them by their number, weakly: a connection lives as long as its handlers.
-/

namespace BeastWebsocketEcho
namespace ConnectionPool

open ChatServer (Endpoint assign)

variable {B : Type*}

inductive Task
  | run | stop
  deriving DecidableEq, Repr

inductive Event
  /-- `handle_run` begins. -/
  | ran
  | stopped
  /-- A connection was made. -/
  | created
  | threw (e : Error)
  | timed (ec : ErrorCode)
  deriving DecidableEq

structure State (B : Type*) where
  ec : ErrorCode
  timer : Timer
  connections : List (Endpoint × ℕ)
  tasks : List Task
  conns : List (ChatterboxConnection.State B)
  log : List Event

/-- What a handler meets: whether the constructor of a connection throws, and then whether `local_endpoint` does; the
connections that are gone; and whether the strand of a connection runs what is dispatched to it at once. -/
structure Outcome where
  result : Except Error (Except Error Endpoint)
  expired : List ℕ
  inl : Bool

/-- Nothing is left that keeps the connection alive. -/
def finished (c : ChatterboxConnection.State B) : Bool :=
  c.tasks.isEmpty && c.connects.isEmpty && c.handshakes.isEmpty && c.reads.isEmpty && c.writes.isEmpty &&
    c.closes.isEmpty

namespace State

def init : State B := ⟨none,Timer.idle,[],[],[],[]⟩

def emit (s : State B) (e : Event) : State B := { s with log := s.log ++ [e] }

/-- A connection that was made is run before it is asked for its endpoint. -/
def anotherConnection (s : State B) (o : Outcome) : State B :=
  match o.result with
  | .error e => s.emit (.threw e)
  | .ok endpoint =>
    let con := ChatterboxConnection.State.init.dispatch .handleRun o.inl
    let s := { s.emit .created with conns := s.conns ++ [con] }
    match endpoint with
    | .error e => s.emit (.threw e)
    | .ok ep => { s with connections := assign s.connections ep (s.conns.length - 1) }

def handleRun (s : State B) (o : Outcome) : State B := { s.emit .ran with ec := none }.anotherConnection o

/-- The handler of the timer: after a stop, or when the wait failed, it does nothing. -/
def handleTimer (s : State B) (ec : ErrorCode) (o : Outcome) : State B :=
  let s := s.emit (.timed ec)
  if s.ec.isSome then s
  else if ec.isSome then s
  else s.anotherConnection o

/-- It is declared and defined, but nothing calls it. -/
def initiateTimer (s : State B) : State B :=
  if s.ec.isNone && s.connections.length < 100 then { s with timer := s.timer.cancel.asyncWait } else s

def stopAll (s : State B) (o : Outcome) : List (ChatterboxConnection.State B) :=
  s.connections.foldl
    (fun conns x => if x.2 ∈ o.expired then conns else conns.modify x.2 fun c => c.dispatch .handleStop o.inl) s.conns

def handleStop (s : State B) (o : Outcome) : State B :=
  { s.emit .stopped with
    ec := some .operationAborted
    timer := s.timer.cancel
    conns := s.stopAll o
    connections := [] }

def execute (s : State B) (o : Outcome) : Task → State B
  | .run => s.handleRun o
  | .stop => s.handleStop o

end State

/-- The caller of a connection is the pool; everything else a connection does by itself. -/
def isCall : ChatterboxConnection.Action B → Bool
  | .dispatch _ _ => true
  | _ => false

inductive Action (B : Type*)
  /-- `run` or `stop`, from anywhere. -/
  | dispatch (task : Task) (onExecutor : Bool) (o : Outcome)
  | runTask (i : ℕ) (o : Outcome)
  | timerEnds (i : ℕ)
  | timed (i : ℕ) (o : Outcome)
  | connection (i : ℕ) (a : ChatterboxConnection.Action B)

/-- Only a connection that nothing keeps alive has expired. -/
def Outcome.possible (o : Outcome) (s : State B) : Bool := o.expired.all fun i => (s.conns[i]?).any finished

def step (s : State B) : Action B → Option (State B)
  | .dispatch task onExecutor o =>
    if Submission.dispatch.inline onExecutor then if o.possible s then some (s.execute o task) else none
    else some { s with tasks := s.tasks ++ [task] }
  | .runTask i o =>
    if o.possible s then (s.tasks[i]?).map ({ s with tasks := s.tasks.eraseIdx i }.execute o) else none
  | .timerEnds i => (s.timer.complete i).map fun timer => { s with timer := timer }
  | .timed i o => (s.timer.take i).map fun x => { s with timer := x.2 }.handleTimer x.1 o
  | .connection i a =>
    if isCall a then none
    else (s.conns[i]?).bind fun c => (ChatterboxConnection.step c a).map fun d => { s with conns := s.conns.set i d }

def machine (B : Type*) : Machine (State B) (Action B) := ⟨fun s => s = State.init,step⟩

end ConnectionPool
end BeastWebsocketEcho
