import BeastWebsocketEcho.ConnectionBase
import BeastWebsocketEcho.FmexConnectOutcomes

/-!
# The exchange client

`main` has an `app` with one connection, of a class derived from `ConnectionBase`. The `app` and
the connection have a strand each, on which what was dispatched runs in order. The connect
operation and the register of the connection drive the rest of it: its handler, and the callback
that closes the websocket. A step of that operation may end in any way, also when it was cancelled.
Nothing happens once the process has exited.
-/

namespace BeastWebsocketEcho
namespace FmexClient

variable {B F D : Type*}

inductive Event
  /-- `on_signal`. -/
  | signal (result : Except Error ℕ)
  | processExit (status : ℕ)

/-- `starting` says that `start` of the `app` waits to run; the connection is made and started by it. -/
structure State (B F D : Type*) where
  starting : Bool
  signals : List (Status (Except Error ℕ))
  link : FmexConnect.State
  base : ConnectionBase.State B F D
  exited : Bool
  log : List Event

def idle (d : D) : ConnectionBase.State B F D := ⟨d,[],[],.sendIdle,false,0,0,[],0,[]⟩

def sigint : ℕ := 2

def notifyConnect (c : ConnectionBase.State B F D) : ConnectionBase.State B F D :=
  { c with connects := c.connects + 1 }.emit .asyncConnect

/-- What the connect operation and the callbacks of the register do to the rest of the connection. -/
def follow (v : ConnectionBase.Virtual B F D) (c : ConnectionBase.State B F D) :
    FmexConnect.Event → ConnectionBase.State B F D
  | .started => notifyConnect c
  | .connectHandler ec => ({ c with connects := c.connects - 1 }.emit (.connectDone ec)).handleConnect v ec
  | .closeInitiated => { c with closeRegistered := false }.initiateClose
  | _ => c

namespace State

def init (d : D) : State B F D := ⟨true,[],FmexConnect.State.init,idle d,false,[]⟩

def emit (s : State B F D) (e : Event) : State B F D := { s with log := s.log ++ [e] }

/-- The rest of the connection follows what `link` has logged since. -/
def advance (v : ConnectionBase.Virtual B F D) (s : State B F D) (link : FmexConnect.State) : State B F D :=
  { s with link := link, base := (link.log.drop s.link.log.length).foldl (follow v) s.base }

def startConnections (s : State B F D) : State B F D :=
  { s with link := { s.link with startCalled := true, tasks := s.link.tasks ++ [.handleConnectCommand] } }

def stopConnections (s : State B F D) : State B F D :=
  { s with link := { s.link with tasks := s.link.tasks ++ [.notifyAll] } }

def start (s : State B F D) : State B F D := { s with signals := s.signals ++ [Status.pending] }.startConnections

def stop (s : State B F D) : State B F D := { s with signals := s.signals.map Status.cancel }.stopConnections

def onSignal (s : State B F D) (result : Except Error ℕ) : State B F D :=
  let s := s.emit (.signal result)
  match result with
  | .error e => if e = .operationAborted then s else { s with exited := true }.emit (.processExit 100)
  | .ok sig => if sig = sigint then s.stopConnections else s

end State

def signalFailed : Except Error ℕ → Bool
  | .ok _ => false
  | .error _ => true

/-- What the strand of the connection runs, in order, and the outstanding step of the connect operation. -/
def linkActs : FmexConnect.Action → Bool
  | .runTask i => i == 0
  | .completes _ | .resume _ => true
  | .start | .stop => false

/-- What happens to the connection besides its connect operation and its register. -/
def baseActs : ConnectionBase.Action B F D → Bool
  | .connected _ | .stop => false
  | _ => true

inductive Action (B F D : Type*)
  | start
  | stop
  | signalCompletes (i : ℕ) (result : Except Error ℕ)
  | signalled (i : ℕ)
  | link (a : FmexConnect.Action)
  | base (a : ConnectionBase.Action B F D)

/-- A step of a process that runs; the `app` is started before anything else is asked of it. -/
def act (v : ConnectionBase.Virtual B F D) (s : State B F D) : Action B F D → Option (State B F D)
  | .start => if s.starting then some { s with starting := false }.start else none
  | .stop => if s.starting then none else some s.stop
  | .signalCompletes i result =>
    (completeAt signalFailed result s.signals i).map fun signals => { s with signals := signals }
  | .signalled i => (takeAt s.signals i).map fun x => { s with signals := x.2 }.onSignal x.1
  | .link a => if linkActs a then (FmexConnect.anyStep s.link a).map (s.advance v) else none
  | .base a =>
    if baseActs a = true ∧ .started ∈ s.link.log then (ConnectionBase.step v s.base a).map fun c => { s with base := c }
    else none

def step (v : ConnectionBase.Virtual B F D) (s : State B F D) (a : Action B F D) : Option (State B F D) :=
  if s.exited then none else act v s a

def machine (v : ConnectionBase.Virtual B F D) : Machine (State B F D) (Action B F D) :=
  ⟨fun s => ∃ d, s = State.init d,step v⟩

end FmexClient
end BeastWebsocketEcho
