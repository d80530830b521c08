import BeastWebsocketEcho.Machine
import BeastWebsocketEcho.Net

/-!
# The server of the memory test

`listener` accepts connections and gives each one a `session`, which echoes what it reads. Neither
is ever stopped. A constructor of the listener that fails leaves it there, and `main` runs it all the same.
-/

namespace BeastWebsocketEcho
namespace MemoryTest

variable {B : Type*}

/-- What a message is made of: whether it is text, and its octets. -/
structure Message (B : Type*) where
  text : Bool
  data : List B
  deriving DecidableEq

inductive Event (B : Type*)
  | asyncAccept
  | accepted (ec : ErrorCode)
  | asyncRead
  | read (ec : ErrorCode) (message : Message B)
  | asyncWrite (message : Message B)
  | wrote (ec : ErrorCode)
  /-- `fail` prints what has failed. -/
  | failed (what : String) (ec : Error)
  deriving DecidableEq

/-- `gotText` is what `ws_` knows of the message that it read last. -/
structure Session (B : Type*) where
  buffer : List B
  gotText : Bool
  accepts : ℕ
  reads : ℕ
  writes : List (Message B)
  log : List (Event B)

namespace Session

def init : Session B := ⟨[],true,0,0,[],[]⟩

def emit (s : Session B) (e : Event B) : Session B := { s with log := s.log ++ [e] }

def run (s : Session B) : Session B := { s with accepts := s.accepts + 1 }.emit .asyncAccept

def doRead (s : Session B) : Session B := { s with reads := s.reads + 1 }.emit .asyncRead

def onAccept (s : Session B) : ErrorCode → Session B
  | some ec => s.emit (.failed "accept" ec)
  | none => s.doRead

def echo (s : Session B) : Session B :=
  let message : Message B := ⟨s.gotText,s.buffer⟩
  { s with writes := s.writes ++ [message] }.emit (.asyncWrite message)

/-- A closed session is left alone; another error is printed, and then what was read is echoed. -/
def onRead (s : Session B) : ErrorCode → Session B
  | some .closed => s
  | some ec => (s.emit (.failed "read" ec)).echo
  | none => s.echo

def onWrite (s : Session B) : ErrorCode → Session B
  | some ec => s.emit (.failed "write" ec)
  | none => { s with buffer := [] }.doRead

/-- The operations in flight, whose handlers keep the session alive. -/
def outstanding (s : Session B) : ℕ := s.accepts + s.reads + s.writes.length

end Session

inductive SessionAction (B : Type*)
  | accepted (ec : ErrorCode)
  | read (ec : ErrorCode) (bytes : List B) (text : Bool)
  | wrote (ec : ErrorCode)

def sessionStep (s : Session B) : SessionAction B → Option (Session B)
  | .accepted ec =>
    if 0 < s.accepts then some (({ s with accepts := s.accepts - 1 }.emit (.accepted ec)).onAccept ec) else none
  | .read ec bytes text =>
    if 0 < s.reads then
      some (({ s with reads := s.reads - 1, buffer := s.buffer ++ bytes, gotText := text }.emit
        (.read ec ⟨text,bytes⟩)).onRead ec)
    else none
  | .wrote ec =>
    match s.writes with
    | _ :: writes => some (({ s with writes := writes }.emit (.wrote ec)).onWrite ec)
    | [] => none

/-! ## The listener -/

inductive ListenerEvent
  | failed (what : String) (ec : Error)
  | accepted
  deriving DecidableEq

structure State (B : Type*) where
  listening : Bool
  accepts : ℕ
  sessions : List (Session B)
  log : List ListenerEvent

/-- The stages of the constructor, in the words with which they fail. -/
def stages : List String := ["open","set_option","bind","listen"]

namespace State

/-- The constructor returns behind the first stage that fails. -/
def construct (result : String → ErrorCode) : State B :=
  match stages.findSome? fun what => (result what).map fun ec => (what,ec) with
  | none => ⟨true,0,[],[]⟩
  | some (what,ec) => ⟨false,0,[],[.failed what ec]⟩

def doAccept (s : State B) : State B := { s with accepts := s.accepts + 1 }

def run (s : State B) : State B := s.doAccept

def onAccept (s : State B) : ErrorCode → State B
  | some ec => { s with log := s.log ++ [ListenerEvent.failed "accept" ec] }.doAccept
  | none => { s with sessions := s.sessions ++ [Session.init.run], log := s.log ++ [ListenerEvent.accepted] }.doAccept

end State

/-- An acceptor that does not listen accepts nothing. -/
inductive Action (B : Type*)
  | accepted (ec : ErrorCode)
  | session (i : ℕ) (a : SessionAction B)

def step (s : State B) : Action B → Option (State B)
  | .accepted ec =>
    if 0 < s.accepts ∧ (ec = none → s.listening = true) then some ({ s with accepts := s.accepts - 1 }.onAccept ec)
    else none
  | .session i a =>
    (s.sessions[i]?).bind fun c => (sessionStep c a).map fun d => { s with sessions := s.sessions.set i d }

def machine (B : Type*) : Machine (State B) (Action B) where
  start s := ∃ result, s = (State.construct result).run
  step := step

end MemoryTest
end BeastWebsocketEcho
