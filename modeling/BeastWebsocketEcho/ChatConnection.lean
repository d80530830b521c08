import BeastWebsocketEcho.ChatStateRuns
import BeastWebsocketEcho.AsyncQueueHalt

/-!
# The chat connection

`connection_impl` is a chat state with the queue of its outgoing messages and the
coroutine `dequeue_send`, which pops a message and writes it, again and again, until a
pop or a write fails. Handlers and coroutine resumptions run one at a time; what they
dispatch or spawn may run at once, inside the call, or later.
-/

namespace BeastWebsocketEcho
namespace ChatConnection

/-- Where `dequeue_send` is. Its loop has no other end than an exception. -/
inductive Tx
  | unspawned
  | spawned
  | popping
  | writing (message : Option String) (status : Status ErrorCode)
  | ended (e : Error)
  deriving DecidableEq

def Tx.cancel : Tx → Tx
  | .writing message status => .writing message status.cancel
  | tx => tx

/-- Whether what is spawned, and what is dispatched, runs before the call returns. -/
structure Inline where
  spawn : Bool
  dispatch : Bool
  deriving DecidableEq

inductive Event
  | sent (message : String)
  | wrote (message : Option String)
  | written (result : ErrorCode)
  deriving DecidableEq

/-- `stops` counts the coroutines that `stop` spawned and that have not begun. -/
structure State where
  chat : ChatState.State
  stops : ℕ
  queue : AsyncQueue.State String
  tx : Tx
  log : List Event

namespace State

def init : State := ⟨ChatState.State.init,0,AsyncQueue.State.init 0,.unspawned,[]⟩

def emit (s : State) (e : Event) : State := { s with log := s.log ++ [e] }

def send (s : State) (message : String) (inl : Inline) : State :=
  { s.emit (.sent message) with queue := s.queue.call (.push message) inl.dispatch }

def awaitPop (s : State) (inl : Inline) : State :=
  { s with tx := .popping, queue := s.queue.pop inl.dispatch }

/-- `dequeue_send` has its message: the pop throws, or the message is written. -/
def awaitWrite (s : State) (ec : ErrorCode) (message : Option String) : State :=
  match ec with
  | some e => { s with tx := .ended e }
  | none => { s.emit (.wrote message) with tx := .writing message .pending }

/-- The write throws, or the loop goes on. -/
def written (s : State) (result : ErrorCode) (inl : Inline) : State :=
  match result with
  | some e => { s.emit (.written (some e)) with tx := .ended e }
  | none => (s.emit (.written none)).awaitPop inl

def onConnect (s : State) (inl : Inline) : State :=
  if inl.spawn then s.awaitPop inl else { s with tx := .spawned }

/-- What a call of the chat state does to the rest of the connection. -/
def perform (s : State) (inl : Inline) : ChatState.Call → State
  | .cancelLowestLayer => { s with tx := s.tx.cancel }
  | .txqueueStop => { s with queue := s.queue.call .stop inl.dispatch }
  | .onConnected => s.onConnect inl
  | .onMessage message => s.send message inl
  | .asyncAccept | .asyncRead | .asyncClose _ => s

def follow (s : State) (inl : Inline) (r : ChatState.State × List ChatState.Call) : State :=
  r.2.foldl (fun u c => u.perform inl c) { s with chat := r.1 }

def notifyError (s : State) (inl : Inline) : State := s.follow inl (s.chat.notify .operationAborted)

def stop (s : State) (inl : Inline) : State :=
  if inl.spawn then s.notifyError inl else { s with stops := s.stops + 1 }

def run (s : State) (inl : Inline) : State :=
  if inl.spawn then s.follow inl (s.chat.proceed (ChatState.runState s.chat.base)) else s

end State

inductive ChatAction
  | start
  | acceptCompletes (result : ErrorCode)
  | resumeAccept
  | readCompletes (result : Except Error (List Char))
  | resumeRead
  | closeCompletes

def ChatAction.action : ChatAction → ChatState.Action
  | .start => .start
  | .acceptCompletes result => .acceptCompletes result
  | .resumeAccept => .resumeAccept
  | .readCompletes result => .readCompletes result
  | .resumeRead => .resumeRead
  | .closeCompletes => .closeCompletes

inductive Action
  | chat (a : ChatAction) (inl : Inline)
  | send (message : String) (inl : Inline)
  | stop (inl : Inline)
  | startStop (inl : Inline)
  | runTask (i : ℕ)
  | startTx (inl : Inline)
  | resumePop (i : ℕ)
  | writeCompletes (result : ErrorCode)
  | resumeWrite (inl : Inline)

/-- A call from outside; all other actions are handlers and coroutines of the connection itself. -/
def Action.isCall : Action → Bool
  | .send _ _ | .stop _ => true
  | _ => false

def step (s : State) : Action → Option State
  | .chat a inl => (ChatState.step s.chat a.action).map (s.follow inl)
  | .send message inl => some (s.send message inl)
  | .stop inl => some (s.stop inl)
  | .startStop inl => if 0 < s.stops then some ({ s with stops := s.stops - 1 }.notifyError inl) else none
  | .runTask i => (s.queue.runTask i).map fun q => { s with queue := q }
  | .startTx inl => if s.tx = .spawned then some (s.awaitPop inl) else none
  | .resumePop i =>
    (s.queue.posted[i]?).bind fun c =>
      (s.queue.invoke i).map fun q => { s with queue := q }.awaitWrite c.ec c.value
  | .writeCompletes result =>
    match s.tx with
    | .writing message status =>
      (status.complete Option.isSome result).map fun st => { s with tx := .writing message st }
    | _ => none
  | .resumeWrite inl =>
    match s.tx with
    | .writing _ (.done result) => some (s.written result inl)
    | _ => none

def machine : Machine State Action where
  start s := s = State.init
  step := step

end ChatConnection
end BeastWebsocketEcho
