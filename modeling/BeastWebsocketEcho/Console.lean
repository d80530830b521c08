import BeastWebsocketEcho.Machine
import BeastWebsocketEcho.Net
import BeastWebsocketEcho.Operation
import BeastWebsocketEcho.Pattern
import Mathlib.Data.List.DropRight

/-!
# The console

`run_op` of the chatterbox client is a coroutine that reads lines from the console until one of
them is a command to quit, or an error or `cancel` ends it. `async_run` publishes it in `run_op_`
and calls it; `console::cancel` loads that pointer, from any thread, and dispatches to the executor.
-/

namespace BeastWebsocketEcho
namespace Console

abbrev Text := List Char

inductive ConsoleEvent
  | quit
  deriving DecidableEq, Repr

def isSpace (c : Char) : Bool := c ∈ [' ','\t','\n','\x0b','\x0c','\r']

/-- `boost::trim`. -/
def trim (line : Text) : Text := (line.dropWhile isSpace).rdropWhile isSpace

/-- `regex_match` with `^(quit|exit|done)$`, in any letter case, of the trimmed line. -/
def command (line : Text) : Bool :=
  (trim line).map Char.toLower ∈ [['q','u','i','t'],['e','x','i','t'],['d','o','n','e']]

/-- What `async_read_until` completes with, when the delimiter is in the buffer. -/
def lineLength (rxstore : Text) : Option ℕ := (find ['\n'] rxstore).map (· + 1)

inductive Point
  | start | reading | posting | ended
  deriving DecidableEq, Repr

/-- How far the call of `async_run` has come. -/
inductive Stage
  | before | published | returned
  deriving DecidableEq, Repr

/-- What is dispatched or posted: the body of `run_op::cancel`, and the expression `(*self)`. -/
inductive Task
  | cancel | expression
  deriving DecidableEq, Repr

inductive Event
  | arrived (chunk : Text)
  | cancelled
  | resumed (ec : ErrorCode)
  | examined (line : Text)
  /-- The handler is invoked. -/
  | completed (ec : ErrorCode) (event : ConsoleEvent) (inside cleared : Bool)
  deriving DecidableEq

/-- `loaded` counts the calls of `console::cancel` that have loaded a pointer and not yet used it. -/
structure State where
  stage : Stage
  point : Point
  runOp : Bool
  rxstore : Text
  ec : ErrorCode
  lastEvent : ConsoleEvent
  reads : List (Status (Except Error ℕ))
  tasks : List Task
  loaded : ℕ
  log : List Event

namespace State

def init : State := ⟨.before,.start,false,[],none,.quit,[],[],0,[]⟩

def emit (s : State) (e : Event) : State := { s with log := s.log ++ [e] }

/-- It completes at once, without reading, if a surplus of the last read holds a line. -/
def asyncReadUntil (s : State) : State :=
  { s with
    point := .reading
    reads := s.reads ++ [match lineLength s.rxstore with
      | some n => .done (.ok n)
      | none => .pending] }

/-- The handler is moved out, the pointer cleared, and the handler invoked. -/
def finish (s : State) : State :=
  let cleared := { s with runOp := false, point := .ended }
  cleared.emit (.completed s.ec s.lastEvent (s.stage == .published) (!cleared.runOp))

def done (s : State) (cont : Bool) : State :=
  if cont then s.finish else { s with tasks := s.tasks ++ [.expression], point := .posting }

def loop (s : State) (cont : Bool) : State := if s.ec.isNone then s.asyncReadUntil else s.done cont

/-- The rest of the loop's body, behind the `yield`. -/
def examine (s : State) (n : ℕ) (cont : Bool) : State :=
  let line := s.rxstore.take n
  let s := { s.emit (.examined line) with rxstore := s.rxstore.drop n }
  if command line then { s with lastEvent := .quit }.done cont else s.loop cont

/-- `run_op::operator()`. -/
def resume (s : State) (ec : ErrorCode) (n : ℕ) (cont : Bool) : State :=
  let s := { s.emit (.resumed ec) with ec := if ec.isSome && s.ec.isNone then ec else s.ec }
  match s.point with
  | .start => s.loop cont
  | .reading => s.examine n cont
  | .posting => s.finish
  | .ended => s

/-- The body of `run_op::cancel`. A read that is between two reads of the descriptor is not `reached`. -/
def cancelBody (s : State) (reached : Bool) : State :=
  { s with
    ec := some .operationAborted
    reads := if reached then s.reads.map Status.cancel else s.reads }

def execute (s : State) (reached : Bool) : Task → State
  | .cancel => (s.emit .cancelled).cancelBody reached
  | .expression => s

/-- `async_run` up to the call of the operation. -/
def publish (s : State) : State := { s with stage := .published, runOp := true }

def call (s : State) : State := { s.resume none 0 false with stage := .returned }

/-- `run_op::cancel` by a caller that has loaded the pointer. -/
def cancel (s : State) (onExecutor reached : Bool) : State :=
  let s := { s with loaded := s.loaded - 1 }
  if Submission.dispatch.inline onExecutor then s.execute reached .cancel else { s with tasks := s.tasks ++ [.cancel] }

def arrive (s : State) (i : ℕ) (chunk : Text) : State :=
  let s := { s.emit (.arrived chunk) with rxstore := s.rxstore ++ chunk }
  match lineLength s.rxstore with
  | some n => { s with reads := s.reads.set i (.done (.ok n)) }
  | none => s

end State

def readFailed : Except Error ℕ → Bool
  | .ok _ => false
  | .error _ => true

/-- A read that fails has the length 0. -/
def resultOf : Except Error ℕ → ErrorCode × ℕ
  | .ok n => (none,n)
  | .error e => (some e,0)

inductive Action
  | publish
  | call
  | load
  | cancel (onExecutor reached : Bool)
  | runTask (i : ℕ) (reached : Bool)
  | arrive (i : ℕ) (chunk : Text)
  | fail (i : ℕ) (e : Error)
  | resume (i : ℕ)

/-- The application calls `async_run` on the executor, so nothing else runs there until it returns. -/
def State.free (s : State) : Bool := s.stage != .published

def step (s : State) : Action → Option State
  | .publish => if s.stage = .before then some s.publish else none
  | .call => if s.stage = .published then some s.call else none
  | .load => if s.runOp then some { s with loaded := s.loaded + 1 } else none
  | .cancel onExecutor reached =>
    if 0 < s.loaded ∧ (onExecutor = true → s.free = true) then some (s.cancel onExecutor reached) else none
  | .runTask i reached =>
    if s.free then (s.tasks[i]?).map ({ s with tasks := s.tasks.eraseIdx i }.execute reached) else none
  | .arrive i chunk => if s.reads[i]? = some .pending then some (s.arrive i chunk) else none
  | .fail i e => (completeAt readFailed (.error e) s.reads i).map fun reads => { s with reads := reads }
  | .resume i =>
    if s.free then (takeAt s.reads i).map fun x => { s with reads := x.2 }.resume (resultOf x.1).1 (resultOf x.1).2 true
    else none

def machine : Machine State Action := ⟨fun s => s = State.init,step⟩

end Console
end BeastWebsocketEcho
