import BeastWebsocketEcho.ChatConnectionSteps

/-!
# The chat server

The accept loop `handle_run` is a coroutine: an accept that succeeded may still wait to
resume it when `handle_stop` runs. The server keeps every connection it ever started,
and its cache `connections_` refers to them by their number. Nobody but the server calls `send`
and `stop` on a connection.
-/

namespace BeastWebsocketEcho
namespace ChatServer

structure Endpoint where
  address : String
  port : ℕ
  deriving DecidableEq

/-- An accept yields a socket, whose `remote_endpoint` yields the endpoint or throws. -/
abbrev AcceptResult := Except Error (Except Error Endpoint)

def acceptFailed : AcceptResult → Bool
  | .ok _ => false
  | .error _ => true

inductive Loop
  | notStarted
  | accepting (status : Status AcceptResult)
  | returned
  | threw (e : Error)

def Loop.cancel : Loop → Loop
  | .accepting status => .accepting status.cancel
  | loop => loop

inductive Event
  | stopped
  | started (visitors : ℕ) (ep : Endpoint)
  deriving DecidableEq

/-- `stops` counts the dispatched calls of `handle_stop` that have not run. -/
structure State where
  ec : ErrorCode
  loop : Loop
  connections : List (Endpoint × ℕ)
  stops : ℕ
  conns : List ChatConnection.State
  log : List Event

def assign (connections : List (Endpoint × ℕ)) (ep : Endpoint) (conn : ℕ) : List (Endpoint × ℕ) :=
  if connections.any (fun x => x.1 == ep) then
    connections.map fun x => if x.1 = ep then (ep,conn) else x
  else connections ++ [(ep,conn)]

def greetings (visitors : ℕ) (ep : Endpoint) : List String :=
  ["Welcome to my websocket server!\n","You are visitor number " ++ toString visitors ++ "\n",
    "You connected from " ++ ep.address ++ ":" ++ toString ep.port ++ "\n","Be good!\n"]

/-- A new connection, on which `handle_run` calls `run` and then `send` for every greeting. -/
def welcome (visitors : ℕ) (ep : Endpoint) (inl : ChatConnection.Inline) : ChatConnection.State :=
  (greetings visitors ep).foldl (fun c message => c.send message inl) (ChatConnection.State.init.run inl)

def finished (c : ChatConnection.State) : Bool :=
  (match c.chat.run with
    | .returned | .threw _ => true
    | _ => false) &&
  (match c.tx with
    | .unspawned | .ended _ => true
    | _ => false) &&
  c.stops == 0 && c.chat.closing == 0

namespace State

def init : State := ⟨none,.notStarted,[],0,[],[]⟩

def turn (s : State) : State :=
  if s.ec.isSome then { s with loop := .returned } else { s with loop := .accepting .pending }

/-- The handler of the accept loop swallows `connection_aborted` and throws everything else on. -/
def caught (s : State) (e : Error) : State :=
  if e = .connectionAborted then s.turn else { s with loop := .threw e }

def startConnection (s : State) (ep : Endpoint) (inl : ChatConnection.Inline) : State :=
  let connections := assign s.connections ep s.conns.length
  { s with
    connections := connections
    conns := s.conns ++ [welcome connections.length ep inl]
    log := s.log ++ [.started connections.length ep] }

def accepted (s : State) (result : AcceptResult) (inl : ChatConnection.Inline) : State :=
  match result with
  | .error e => s.caught e
  | .ok (.error e) => s.caught e
  | .ok (.ok ep) => (s.startConnection ep inl).turn

/-- The loop of `handle_stop` over the cache, which skips the connections that have expired. -/
def stopAll (s : State) (expired : List ℕ) (inl : ChatConnection.Inline) : List ChatConnection.State :=
  s.connections.foldl
    (fun conns x => if x.2 ∈ expired then conns else conns.modify x.2 fun c => c.stop inl) s.conns

def handleStop (s : State) (expired : List ℕ) (inl : ChatConnection.Inline) : State :=
  { s with
    ec := some .operationAborted
    loop := s.loop.cancel
    conns := s.stopAll expired inl
    connections := []
    log := s.log ++ [.stopped] }

end State

inductive Action
  | start
  | acceptCompletes (result : AcceptResult)
  | resumeAccept (inl : ChatConnection.Inline)
  | stop
  | handleStop (expired : List ℕ) (inl : ChatConnection.Inline)
  | connection (i : ℕ) (a : ChatConnection.Action)

def step (s : State) : Action → Option State
  | .start =>
    match s.loop with
    | .notStarted => some s.turn
    | _ => none
  | .acceptCompletes result =>
    match s.loop with
    | .accepting status => (status.complete acceptFailed result).map fun st => { s with loop := .accepting st }
    | _ => none
  | .resumeAccept inl =>
    match s.loop with
    | .accepting (.done result) => some (s.accepted result inl)
    | _ => none
  | .stop => some { s with stops := s.stops + 1 }
  | .handleStop expired inl =>
    if 0 < s.stops ∧ expired.all (fun i => (s.conns[i]?).any finished) = true then
      some ({ s with stops := s.stops - 1 }.handleStop expired inl)
    else none
  | .connection i a =>
    if a.isCall then none
    else (s.conns[i]?).bind fun c => (ChatConnection.step c a).map fun d => { s with conns := s.conns.set i d }

def machine : Machine State Action where
  start s := s = State.init
  step := step

end ChatServer
end BeastWebsocketEcho
