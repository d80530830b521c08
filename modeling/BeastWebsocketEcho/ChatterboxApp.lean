import BeastWebsocketEcho.ConnectionPool
import BeastWebsocketEcho.Console

/-!
# The chatterbox program

`app` puts the signals, the console and the pool of connections on one executor, and `main`
calls its `run` before the executor runs, so that `handle_run` waits there. What is dispatched on
the executor runs at once. An exception that leaves such a function object is kept by the executor
until the handler has returned, and then ends the program.
-/

namespace BeastWebsocketEcho
namespace ChatterboxApp

variable {B : Type*}

inductive Event
  | ran
  /-- The handler of the wait for a signal is told of its number. -/
  | signal (result : Except Error ℕ)
  /-- `handle_console`. -/
  | console (ec : ErrorCode) (event : Console.ConsoleEvent)

/-- `posted` says that `handle_run` waits to run, `bombed` that an exception has left a handler. -/
structure State (B : Type*) where
  posted : Bool
  signals : List (Status (Except Error ℕ))
  console : Console.State
  clients : ConnectionPool.State B
  bombed : Bool
  log : List Event

def threw : ConnectionPool.Event → Bool
  | .threw _ => true
  | _ => false

namespace State

def init : State B := ⟨true,[],Console.State.init,ConnectionPool.State.init,false,[]⟩

def emit (s : State B) (e : Event) : State B := { s with log := s.log ++ [e] }

/-- Whether the pool has thrown since it was `before`. -/
def throws (before after : ConnectionPool.State B) : Bool := (after.log.drop before.log.length).any threw

def callClients (s : State B) (task : ConnectionPool.Task) (o : ConnectionPool.Outcome) : State B :=
  let clients := s.clients.execute o task
  { s with clients := clients, bombed := throws s.clients clients }

def cancelConsole (s : State B) (reached : Bool) : State B :=
  if s.console.runOp then { s with console := { s.console with loaded := s.console.loaded + 1 }.cancel true reached }
    else s

def initiateConsole (s : State B) : State B := { s with console := s.console.publish.call }

def handleRun (s : State B) (o : ConnectionPool.Outcome) : State B :=
  ({ s.emit .ran with signals := s.signals ++ [Status.pending] }.callClients .run o).initiateConsole

def handleSignal (s : State B) (result : Except Error ℕ) (o : ConnectionPool.Outcome) (reached : Bool) : State B :=
  let s := s.emit (.signal result)
  match result with
  | .ok _ => (s.callClients .stop o).cancelConsole reached
  | .error _ => s

def handleConsole (s : State B) (o : ConnectionPool.Outcome) (ec : ErrorCode) (event : Console.ConsoleEvent) :
    State B :=
  let s := s.emit (.console ec event)
  if ec.isNone then
    match event with
    | .quit =>
      let s := s.callClients .stop o
      { s with signals := s.signals.map Status.cancel }
  else s

end State

def invocation? : Console.Event → Option (ErrorCode × Console.ConsoleEvent)
  | .completed ec event _ _ => some (ec,event)
  | _ => none

def invocations (before after : Console.State) : List (ErrorCode × Console.ConsoleEvent) :=
  (after.log.drop before.log.length).filterMap invocation?

def signalFailed : Except Error ℕ → Bool
  | .ok _ => false
  | .error _ => true

/-- What the console does by itself. -/
def consoleActs : Console.Action → Bool
  | .runTask _ _ | .arrive _ _ | .fail _ _ | .resume _ => true
  | _ => false

def clientsAct : ConnectionPool.Action B → Bool
  | .dispatch _ _ _ => false
  | _ => true

inductive Action (B : Type*)
  | handleRun (o : ConnectionPool.Outcome)
  | signalCompletes (i : ℕ) (result : Except Error ℕ)
  | signalled (i : ℕ) (o : ConnectionPool.Outcome) (reached : Bool)
  | console (a : Console.Action) (o : ConnectionPool.Outcome)
  | clients (a : ConnectionPool.Action B)

def step (s : State B) : Action B → Option (State B)
  | .handleRun o =>
    if s.bombed = false ∧ s.posted = true ∧ o.possible s.clients = true
      then some ({ s with posted := false }.handleRun o)
    else none
  | .signalCompletes i result =>
    if s.bombed then none
    else (completeAt signalFailed result s.signals i).map fun signals => { s with signals := signals }
  | .signalled i o reached =>
    if s.bombed = false ∧ o.possible s.clients = true then
      (takeAt s.signals i).map fun x => { s with signals := x.2 }.handleSignal x.1 o reached
    else none
  | .console a o =>
    if s.bombed = false ∧ consoleActs a = true ∧ o.possible s.clients = true then
      (Console.step s.console a).map fun c =>
        (invocations s.console c).foldl (fun s x => s.handleConsole o x.1 x.2) { s with console := c }
    else none
  | .clients a =>
    if s.bombed = false ∧ clientsAct a = true then
      (ConnectionPool.step s.clients a).map fun clients =>
        { s with clients := clients, bombed := State.throws s.clients clients }
    else none

def machine (B : Type*) : Machine (State B) (Action B) := ⟨fun s => s = State.init,step⟩

end ChatterboxApp
end BeastWebsocketEcho
