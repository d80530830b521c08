import BeastWebsocketEcho.Machine
import BeastWebsocketEcho.Callbacks

/-!
# The stop source

One stop source, with the connections that were made to it and their copies. Slots are known
by the number of the `connect` call that passed them. A slot that runs may call everything
that the code outside may call, so the machine has the calls in progress as frames; the
order in which `stop` runs the slots is any.
-/

namespace BeastWebsocketEcho
namespace StopSource

def stoppedValue : UInt64 := 0xffffffffffffffff

structure Impl where
  nextId : UInt64
  slots : List (UInt64 × ℕ)

namespace Impl

def stopped (m : Impl) : Bool := m.nextId == stoppedValue

def disconnect (m : Impl) (id : UInt64) : Impl := { m with slots := eraseKey m.slots id }

end Impl

/-- `stop_connection`; a connection whose `source_` was taken is not attached. -/
structure Connection where
  attached : Bool
  id : UInt64
  slot : ℕ

/-- What called a slot. -/
inductive Caller
  | stop
  | connect (slot : ℕ)
  deriving DecidableEq

/-- The calls on the source are numbered. A `disconnect` is logged with the slots it removed. -/
inductive Event
  | connected (slot : ℕ)
  | connectEnded (slot : ℕ)
  | disconnected (slot : ℕ) (removed : List ℕ)
  | stopBegan (number : ℕ)
  | stopEnded (number : ℕ)
  | invoked (slot : ℕ)
  deriving DecidableEq

structure State where
  impl : Impl
  connects : ℕ
  stops : ℕ
  connections : List Connection
  frames : List (Frame ℕ Caller)
  log : List Event

namespace State

def init : State := ⟨⟨0,[]⟩,0,0,[],[],[]⟩

def emit (s : State) (e : Event) : State := { s with log := s.log ++ [e] }

/-- `connect` makes its connection and returns. -/
def endConnect (s : State) (id : UInt64) (slot : ℕ) : State :=
  ({ s with connections := s.connections ++ [⟨true,id,slot⟩] } : State).emit (.connectEnded slot)

def connect (s : State) : State :=
  let slot := s.connects
  let id := s.impl.nextId
  let s := { s with connects := s.connects + 1 }.emit (.connected slot)
  if id = stoppedValue then
    { s with frames := .call (.connect slot) :: s.frames }.emit (.invoked slot)
  else
    { s with impl := ⟨id + 1,emplace s.impl.slots id slot⟩ }.endConnect id slot

def disconnect (s : State) (i : ℕ) (c : Connection) : State :=
  if c.attached then
    { s with
      impl := s.impl.disconnect c.id
      connections := s.connections.set i { c with attached := false } }.emit
        (.disconnected c.slot (filed s.impl.slots c.id))
  else s.emit (.disconnected c.slot [])

def stop (s : State) : State :=
  { s with
    impl := ⟨stoppedValue,[]⟩
    stops := s.stops + 1
    frames := .batch s.stops (s.impl.slots.map Prod.snd) :: s.frames }.emit (.stopBegan s.stops)

def slotReturns (s : State) : Caller → State
  | .stop => s
  | .connect slot => s.endConnect stoppedValue slot

end State

inductive Action
  | connect
  | copy (i : ℕ)
  | disconnect (i : ℕ)
  | stop
  | runSlot (i : ℕ)
  | loopEnds
  | slotReturns

def step (s : State) : Action → Option State
  | .connect => if free s.frames then some s.connect else none
  | .copy i =>
    if free s.frames then
      (s.connections[i]?).map fun c => { s with connections := s.connections ++ [c] }
    else none
  | .disconnect i => if free s.frames then (s.connections[i]?).map (s.disconnect i) else none
  | .stop => if free s.frames then some s.stop else none
  | .runSlot i =>
    (takeNext s.frames i).map fun x => { s with frames := .call .stop :: x.2 }.emit (.invoked x.1)
  | .loopEnds =>
    match s.frames with
    | .batch number [] :: frames => some ({ s with frames := frames }.emit (.stopEnded number))
    | _ => none
  | .slotReturns =>
    match s.frames with
    | .call caller :: frames => some ({ s with frames := frames }.slotReturns caller)
    | _ => none

def machine : Machine State Action where
  start s := s = State.init
  step := step

end StopSource
end BeastWebsocketEcho
