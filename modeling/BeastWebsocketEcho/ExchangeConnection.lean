import BeastWebsocketEcho.ConnectionBase
import BeastWebsocketEcho.Json
import BeastWebsocketEcho.Timer

/-!
# The ping region of the exchange client

`ExchangeConnection`, the class derived from `ConnectionBase`: an orthogonal region that sends a
ping whenever its timer expires, as long as there is a connection. The handler of the timer goes
by its error code and does not look at the state. The clock is read by the handler that sends.
-/

namespace BeastWebsocketEcho
namespace ExchangeConnection

inductive PingState
  | notActive | waitingTimer | exited
  deriving DecidableEq, Repr

inductive PingEvent
  | asserted (holds : Bool)
  | asyncWait
  /-- A ping was passed to `notify_send`. -/
  | sent (now : ℤ)
  /-- `ping_stop`. -/
  | stop
  deriving DecidableEq

structure Ping where
  state : PingState
  timer : Timer
  log : List PingEvent

namespace Ping

def init : Ping := ⟨.notActive,Timer.idle,[]⟩

def emit (p : Ping) (e : PingEvent) : Ping := { p with log := p.log ++ [e] }

/-- `ping_enter_waiting_state`; `expires_after` cancels the waits there are. -/
def enterWaitingState (p : Ping) : Ping :=
  ({ p with state := .waitingTimer, timer := p.timer.cancel.asyncWait } : Ping).emit .asyncWait

def start (p : Ping) : Ping := (p.emit (.asserted (p.state == .notActive))).enterWaitingState

def stop (p : Ping) : Ping :=
  ({ p with state := .exited, timer := if p.state = .waitingTimer then p.timer.cancel else p.timer } : Ping).emit .stop

end Ping

variable {B F : Type*}

def subscription : Json :=
  .object [("cmd",.string "sub"),("args",.array [.string "ticker.btcusd_p"]),("id",.string "random_id.me.hk")]

def pingFrame (now : ℤ) : Json :=
  .object [("cmd",.string "ping"),("args",.array [.number now]),("id",.string "random_id.me.hk")]

/-- `on_text_frame`: the frames it sends, and what it throws. What it only prints is left out. -/
def onTextFrame (text : JsonText B F) (frame : List B) : List F × Option ConnectionBase.Thrown :=
  match text.parse frame with
  | none => ([],some .exception)
  | some j =>
    match (j.field "type").bind Json.asString with
    | none => ([],some .exception)
    | some type =>
      if type = "hello" then ([text.dump subscription],none)
      else if type = "ticker.btcusd_p" then
        match (j.field "ts").bind Json.asNumber with
        | none => ([],some .exception)
        | some _ => ([],none)
      else ([],none)

def overrides (text : JsonText B F) : ConnectionBase.Virtual B F Ping where
  onTransportUp := fun p => (p.start,[])
  onError := fun _ p => (p.stop,[])
  onTextFrame := fun frame p => ((p,(onTextFrame text frame).1),(onTextFrame text frame).2)

abbrev State (B F : Type*) := ConnectionBase.State B F Ping

def pingOnTimer (text : JsonText B F) (now : ℤ) (s : State B F) : ErrorCode → State B F
  | some ec => { s with derived := { s.derived with state := .exited } }.fail (overrides text) ec
  | none =>
    let s := { s with derived := s.derived.emit (.sent now) }.notifySend (text.dump (pingFrame now))
    { s with derived := s.derived.enterWaitingState }

inductive Action (B : Type*)
  | connected (ec : ErrorCode)
  | read (ec : ErrorCode) (bytes : List B)
  | wrote (ec : ErrorCode)
  | closed (ec : ErrorCode)
  | stop
  /-- The wait at place `i` ends. -/
  | timerEnds (i : ℕ)
  /-- The handler of the wait at place `i` runs. -/
  | onTimer (i : ℕ) (now : ℤ)

def step (text : JsonText B F) (s : State B F) : Action B → Option (State B F)
  | .connected ec => ConnectionBase.step (overrides text) s (.connected ec)
  | .read ec bytes => ConnectionBase.step (overrides text) s (.read ec bytes)
  | .wrote ec => ConnectionBase.step (overrides text) s (.wrote ec)
  | .closed ec => ConnectionBase.step (overrides text) s (.closed ec)
  | .stop => ConnectionBase.step (overrides text) s .stop
  | .timerEnds i => (s.derived.timer.complete i).map fun timer =>
      { s with derived := { s.derived with timer := timer } }
  | .onTimer i now =>
    (s.derived.timer.take i).map fun x =>
      pingOnTimer text now { s with derived := { s.derived with timer := x.2 } } x.1

/-- The client after its connect operation was started. -/
def init : State B F := ConnectionBase.State.init Ping.init

def machine (text : JsonText B F) : Machine (State B F) (Action B) := ⟨fun s => s = init,step text⟩

end ExchangeConnection
end BeastWebsocketEcho
