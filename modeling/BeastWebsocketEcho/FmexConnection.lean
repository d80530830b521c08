import BeastWebsocketEcho.Json
import BeastWebsocketEcho.Timer
import BeastWebsocketEcho.WssTransport

/-!
# The ping state of the websocket client

`fmex_connection`, the class derived from `wss_transport`. It waits, sends a ping when the timer
expires, and waits again when the server answers with a frame of type `ping`, in whatever state
such a frame finds it. The handler of the timer looks at its error code only.
-/

namespace BeastWebsocketEcho
namespace FmexConnection

/-- The states that `ping_state` names and the code uses. -/
inductive PingState
  | notStarted | wait | waitingPong
  deriving DecidableEq, Repr

inductive PingEvent
  | asserted (holds : Bool)
  /-- `ping_event_timeout`. -/
  | timeout
  /-- `ping_event_pong`. -/
  | pong
  deriving DecidableEq

structure Ping where
  state : PingState
  timer : Timer
  log : List PingEvent

namespace Ping

def init : Ping := ⟨.notStarted,Timer.idle,[]⟩

def emit (p : Ping) (e : PingEvent) : Ping := { p with log := p.log ++ [e] }

/-- `ping_enter_wait`; `expires_after` cancels the waits there are. -/
def enterWait (p : Ping) : Ping := { p with state := .wait, timer := p.timer.cancel.asyncWait }

def enterState (p : Ping) : Ping := (p.emit (.asserted (p.state == .notStarted))).enterWait

def eventTimeout (p : Ping) : Ping := ({ p with state := .waitingPong } : Ping).emit .timeout

def eventPong (p : Ping) : Ping := (p.emit .pong).enterWait

end Ping

inductive Exception
  | notJson | notObject | outOfRange | notString
  deriving DecidableEq, Repr

variable {B : Type*}

/-- The frame of `ping_event_timeout`. -/
def pingFrame (timestamp : ℕ) : Json :=
  .object [("cmd",.string "ping"),("id",.string "my_ping_ident"),("args",.array [.number timestamp])]

/-- The frame of `request_ticker`. -/
def tickerRequest (ticker : String) : Json :=
  .object [("cmd",.string "sub"),("id",.string "some_id"),("args",.array [.string ("ticker." ++ ticker)])]

/-- The `json::value` that a frame parses to, and its `type`. -/
def frameType (text : JsonText B (List B)) (frame : List B) : Except Exception (Json × Json) :=
  match text.parse frame with
  | none => .error .notJson
  | some (.object fields) =>
    match fields.lookup "type" with
    | some type => .ok (.object fields,type)
    | none => .error .outOfRange
  | some _ => .error .notObject

/-- `on_text_frame`: what it does to the ping state, what it sends, and what it throws. -/
def onTextFrame (text : JsonText B (List B)) (frame : List B) (p : Ping) :
    Ping × List (WssTransport.Call B) × Option Exception :=
  match frameType text frame with
  | .error e => (p,[],some e)
  | .ok (jframe,.string type) =>
    if type = "hello" then (p,[.sendTextFrame (text.dump (tickerRequest "btcusd_p"))],none)
    else if type = "ping" then (p.eventPong,[],none)
    else if type.startsWith "ticker." then
      match jframe.field "ticker" with
      | some _ => (p,[],none)
      | none => (p,[],some .outOfRange)
    else (p,[],none)
  | .ok _ => (p,[],some .notString)

structure State (B : Type*) where
  transport : WssTransport.State B Exception
  ping : Ping

def overrides (text : JsonText B (List B)) (frame : List B) (p : Ping) : WssTransport.Derived B Exception where
  onTransportUp := []
  onTransportError := []
  onTextFrame := (onTextFrame text frame p).2.1
  throws := (onTextFrame text frame p).2.2

inductive Action (B : Type*)
  | start
  | connected (ec : ErrorCode)
  | wrote (ec : ErrorCode)
  | read (ec : ErrorCode) (bytes : List B) (isText : Bool)
  /-- The wait at place `i` ends. -/
  | timerEnds (i : ℕ)
  /-- The handler of the wait at place `i` runs. -/
  | onTimer (i : ℕ) (timestamp : ℕ)

/-- The bytes that `handle_read` passes to `on_text_frame`. -/
def delivered (s : State B) (bytes : List B) : List B := (s.transport.rxBuffer ++ bytes).take bytes.length

/-- The handler that `ping_enter_wait` gives to the timer. -/
def handleTimer (text : JsonText B (List B)) (timestamp : ℕ) (s : State B) : ErrorCode → State B
  | some _ => s
  | none =>
    { transport := s.transport.sendTextFrame (text.dump (pingFrame timestamp))
      ping := s.ping.eventTimeout }

def step (text : JsonText B (List B)) (s : State B) : Action B → Option (State B)
  | .start => (WssTransport.step s.transport (.start [.initiateConnect])).map fun transport =>
      { s with transport := transport }
  | .connected ec =>
    (WssTransport.step s.transport (.connected ec (overrides text [] s.ping))).map fun transport =>
      ⟨transport,if ec.isNone then s.ping.enterState else s.ping⟩
  | .wrote ec =>
    (WssTransport.step s.transport (.wrote ec (overrides text [] s.ping))).map fun transport =>
      { s with transport := transport }
  | .read ec bytes isText =>
    (WssTransport.step s.transport
        (.read ec bytes isText (overrides text (delivered s bytes) s.ping))).map fun transport =>
      ⟨transport,if ec.isNone && isText then (onTextFrame text (delivered s bytes) s.ping).1 else s.ping⟩
  | .timerEnds i => (s.ping.timer.complete i).map fun timer => { s with ping := { s.ping with timer := timer } }
  | .onTimer i timestamp =>
    (s.ping.timer.take i).map fun x =>
      handleTimer text timestamp { s with ping := { s.ping with timer := x.2 } } x.1

def init : State B := ⟨WssTransport.State.init,Ping.init⟩

def machine (text : JsonText B (List B)) : Machine (State B) (Action B) := ⟨fun s => s = init,step text⟩

end FmexConnection
end BeastWebsocketEcho
