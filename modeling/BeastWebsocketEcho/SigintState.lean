import BeastWebsocketEcho.Machine
import BeastWebsocketEcho.Callbacks
import BeastWebsocketEcho.Timer

/-!
# The confirmation of an interrupt

`sigint_state`, on which `start` was called once. Slots are known by the number of the
`add_slot` call that was given them. A slot that runs may call `add_slot` itself, so the machine
has the slots in progress as frames. What `net::dispatch` is given outside of the executor
waits its turn among the tasks.
-/

namespace BeastWebsocketEcho
namespace SigintState

inductive StateType
  | inactive | waiting | confirming | exitState
  deriving DecidableEq, Repr

inductive Task
  | start
  | stop
  | addSlot (slot : ℕ)
  deriving DecidableEq, Repr

inductive Event
  /-- The signal set gets a wait. -/
  | awaitSignal
  | awaitTimer
  /-- `handle_signal` is called. -/
  | signal (ec : ErrorCode)
  | timer (ec : ErrorCode)
  | exited
  | asserted (holds : Bool)
  | processExit (status : ℕ)
  /-- `add_slot` runs on the executor. -/
  | added (slot : ℕ)
  | invoked (slot : ℕ)
  deriving DecidableEq, Repr

structure State where
  state : StateType
  /-- `SIGINT` was added to the signal set. -/
  registered : Bool
  /-- The signals that came while nothing waited for them. -/
  undelivered : ℕ
  signalWaits : List (Status ErrorCode)
  timer : Timer
  signals : List ℕ
  /-- How often `add_slot` was called. -/
  slots : ℕ
  tasks : List Task
  frames : List (Frame ℕ Unit)
  log : List Event

namespace State

def init : State := ⟨.inactive,false,0,[],.idle,[],0,[.start],[],[]⟩

def emit (s : State) (e : Event) : State := { s with log := s.log ++ [e] }

/-- A wait is over at once if a signal was not delivered yet. -/
def awaitSignal (s : State) : State :=
  match s.undelivered with
  | 0 => ({ s with signalWaits := s.signalWaits ++ [.pending] } : State).emit .awaitSignal
  | n + 1 => ({ s with undelivered := n, signalWaits := s.signalWaits ++ [.done none] } : State).emit .awaitSignal

def awaitTimer (s : State) : State := { s with timer := s.timer.cancel.asyncWait }.emit .awaitTimer

def handleStart (s : State) : State := { { s with registered := true }.awaitSignal with state := .waiting }

def handleStop (s : State) : State := { s with signalWaits := s.signalWaits.map Status.cancel }

/-- `emit_signals` begins: it takes the slots, and calls them one after the other. -/
def emitSignals (s : State) : State :=
  ({ s with signals := [], frames := .batch 0 s.signals :: s.frames } : State).emit
    (.asserted (s.state == .exitState))

def eventSigint (s : State) : State :=
  match s.state with
  | .waiting => ({ s with state := .confirming } : State).awaitTimer.awaitSignal
  | .confirming => (({ s with timer := s.timer.cancel, state := .exitState } : State).emit .exited).emitSignals
  | .inactive | .exitState => s

def handleSignal (s : State) : ErrorCode → State
  | some ec =>
    if ec != .operationAborted then (s.emit (.signal (some ec))).emit (.processExit 100) else s.emit (.signal (some ec))
  | none => (s.emit (.signal none)).eventSigint

def handleTimer (s : State) (ec : ErrorCode) : State :=
  let s := s.emit (.timer ec)
  if ec.isSome then s
  else match s.state with
    | .waiting | .inactive | .exitState => s
    | .confirming => { s with state := .waiting }

def handleAddSlot (s : State) (slot : ℕ) : State :=
  match s.state with
  | .exitState => ({ s with frames := .call () :: s.frames }.emit (.added slot)).emit (.invoked slot)
  | .inactive | .confirming | .waiting => { s with signals := s.signals ++ [slot] }.emit (.added slot)

def addSlot (s : State) (inl : Bool) : State :=
  if inl then { s with slots := s.slots + 1 }.handleAddSlot s.slots
  else { s with slots := s.slots + 1, tasks := s.tasks ++ [.addSlot s.slots] }

def runTask (s : State) : Task → State
  | .start => s.handleStart
  | .stop => s.handleStop
  | .addSlot slot => s.handleAddSlot slot

def deliver (s : State) : State :=
  if .pending ∈ s.signalWaits then
    { s with signalWaits := s.signalWaits.map fun st => if st = .pending then .done none else st }
  else { s with undelivered := s.undelivered + 1 }

end State

inductive Action
  | stop (inl : Bool)
  | addSlot (inl : Bool)
  | runTask
  | deliver
  | signalAborted (i : ℕ)
  | handleSignal (i : ℕ)
  | timerEnds (i : ℕ)
  | handleTimer (i : ℕ)
  | runSlot
  | loopEnds
  | slotReturns
  deriving DecidableEq, Repr

def step (s : State) : Action → Option State
  | .stop inl =>
    if inl then if free s.frames then some s.handleStop else none
    else some { s with tasks := s.tasks ++ [.stop] }
  | .addSlot inl => if inl && !free s.frames then none else some (s.addSlot inl)
  | .runTask =>
    match s.frames, s.tasks with
    | [], task :: tasks => some ({ s with tasks := tasks }.runTask task)
    | _, _ => none
  | .deliver => if s.registered then some s.deliver else none
  | .signalAborted i =>
    match s.signalWaits[i]? with
    | some .cancelled => some { s with signalWaits := s.signalWaits.set i (.done (some .operationAborted)) }
    | _ => none
  | .handleSignal i =>
    match s.frames, s.signalWaits[i]? with
    | [], some (.done ec) => some ({ s with signalWaits := s.signalWaits.eraseIdx i }.handleSignal ec)
    | _, _ => none
  | .timerEnds i => (s.timer.complete i).map fun timer => { s with timer := timer }
  | .handleTimer i =>
    match s.frames, s.timer.take i with
    | [], some (ec,timer) => some ({ s with timer := timer }.handleTimer ec)
    | _, _ => none
  | .runSlot =>
    (takeNext s.frames 0).map fun x => { s with frames := .call () :: x.2 }.emit (.invoked x.1)
  | .loopEnds =>
    match s.frames with
    | .batch _ [] :: frames => some { s with frames := frames }
    | _ => none
  | .slotReturns =>
    match s.frames with
    | .call _ :: frames => some { s with frames := frames }
    | _ => none

def machine : Machine State Action where
  start s := s = State.init
  step := step

/-! ## What the log says -/

def Event.added? : Event → Option ℕ
  | .added slot => some slot
  | _ => none

def Event.invoked? : Event → Option ℕ
  | .invoked slot => some slot
  | _ => none

def added (log : List Event) : List ℕ := log.filterMap Event.added?

def invoked (log : List Event) : List ℕ := log.filterMap Event.invoked?

/-- Two interrupts were handled, and no wait that expired was handled between them. -/
def PressedTwice (log : List Event) : Prop :=
  ∃ before mid after, log = before ++ .signal none :: (mid ++ .signal none :: after) ∧ .timer none ∉ mid

def early (log : List Event) : List ℕ := added (log.takeWhile (· != .exited))

/-- Those of them that were called, in order. -/
def calledEarly (log : List Event) : List ℕ := (invoked log).filter (early log).contains

end SigintState
end BeastWebsocketEcho
