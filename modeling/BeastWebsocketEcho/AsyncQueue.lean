import BeastWebsocketEcho.Machine
import BeastWebsocketEcho.Net

/-!
# The asynchronous queue

`Impl` holds the fields of `async_queue_impl`, and `maybeComplete` with the task
bodies of `push`, `stop` and `async_pop` are its functions. The queue machine runs
these bodies one atomic step at a time: the consumer may start its next pop between
any two of them, as soon as the handler of its previous pop has been invoked.
-/

namespace BeastWebsocketEcho
namespace AsyncQueue

inductive WaitingState
  | notWaiting | waiting
  deriving DecidableEq, Repr

/-- A handler on its way to its executor, with its arguments. The pop whose handler it is
stands for the handler; a value is `none` when it is default-constructed or moved-from. -/
structure Completion (V : Type) where
  executor : Option ℕ
  handler : Option ℕ
  ec : ErrorCode
  value : Option V

/-- The fields of `async_queue_impl`. An element of `values` is `none` once it was moved from. -/
structure Impl (V : Type) where
  state : WaitingState
  handler : Option ℕ
  handlerExecutor : Option ℕ
  values : List (Option V)
  ec : ErrorCode
  defaultExecutor : ℕ

inductive Task (V : Type)
  | wake (pop : ℕ) | push (v : V) | stop
  deriving DecidableEq

variable {V : Type}

namespace Impl

def construct (exec : ℕ) : Impl V := ⟨.notWaiting,none,none,[],none,exec⟩

/-- What `async_pop` stores before it dispatches the wake-up. -/
def asyncPop (q : Impl V) (pop : ℕ) (associated : Option ℕ) : Impl V :=
  { q with
    handlerExecutor := some (associated.getD q.defaultExecutor)
    handler := some pop
    state := .waiting }

/-- The test at the entry of `maybe_complete`: no value and no error. -/
def empty (q : Impl V) : Bool := q.values.isEmpty && q.ec.isNone

def exchange (q : Impl V) : Impl V := { q with state := .notWaiting }

/-- The function object that `maybe_complete` posts: the stored handler with the error if there
is one, otherwise with the front value. -/
def completion (q : Impl V) : Completion V :=
  ⟨q.handlerExecutor,q.handler,q.ec,if q.ec.isSome then none else q.values.head?.join⟩

/-- Building that function object moves the handler and the front value out. -/
def moveOut (q : Impl V) : Impl V :=
  { q with
    handler := none
    values := if q.ec.isSome then q.values else
      match q.values with
      | [] => []
      | _ :: vs => none :: vs }

def remove (q : Impl V) : Impl V :=
  if q.ec.isSome then { q with ec := none } else { q with values := q.values.tail }

def maybeComplete (q : Impl V) : Impl V × Option (Completion V) :=
  if q.empty then (q,none)
  else if q.state = .waiting then (q.exchange.moveOut.remove,some q.exchange.completion)
  else (q.exchange,none)

def clear (q : Impl V) : Impl V := { q with values := [] }

end Impl

inductive Pc
  | body | clearing | testing | exchanging | posting | clearingEc | popping
  deriving DecidableEq, Repr

/-- `nested` tells that the task runs inside the call that dispatched it. -/
structure Running (V : Type) where
  task : Task V
  pc : Pc
  nested : Bool

inductive Event (V : Type)
  | initiated (pop : ℕ)
  | assertFailed
  | pushed (v : V)
  | stopped
  | discarded (v : Option V)
  | handed (handler : Option ℕ) (ec : ErrorCode) (v : Option V)
  | invoked (handler : Option ℕ) (inside : Bool)
  deriving DecidableEq

/-- The queue with its surroundings: the dispatched tasks not yet begun, the task that runs on
the default executor, the posted handlers, and the one consumer. -/
structure State (V : Type) where
  queue : Impl V
  tasks : List (Task V)
  running : Option (Running V)
  posted : List (Completion V)
  pops : ℕ
  awaiting : Bool
  log : List (Event V)

namespace State

def init (exec : ℕ) : State V := ⟨.construct exec,[],none,[],0,false,[]⟩

def pc (s : State V) : Option Pc := s.running.map Running.pc

def emit (s : State V) (e : Event V) : State V := { s with log := s.log ++ [e] }

def dispatch (s : State V) (t : Task V) (onExecutor : Bool) : Option (State V) :=
  if Submission.dispatch.inline onExecutor then
    if s.running.isNone then some { s with running := some ⟨t,.body,true⟩ } else none
  else some { s with tasks := s.tasks ++ [t] }

/-- `async_pop` up to the dispatch: the assertion, then the stores. -/
def initiate (s : State V) (associated : Option ℕ) : State V :=
  let checked := if s.queue.state = .notWaiting then s else s.emit .assertFailed
  { checked with
    queue := s.queue.asyncPop s.pops associated
    pops := s.pops + 1
    awaiting := true
    log := checked.log ++ [.initiated s.pops] }

section Initiate

variable (s : State V) (associated : Option ℕ)

@[simp] theorem initiate_queue : (s.initiate associated).queue = s.queue.asyncPop s.pops associated := rfl
@[simp] theorem initiate_pops : (s.initiate associated).pops = s.pops + 1 := rfl
@[simp] theorem initiate_awaiting : (s.initiate associated).awaiting = true := rfl
@[simp] theorem initiate_tasks : (s.initiate associated).tasks = s.tasks := by
  unfold initiate; split <;> rfl
@[simp] theorem initiate_running : (s.initiate associated).running = s.running := by
  unfold initiate; split <;> rfl
@[simp] theorem initiate_posted : (s.initiate associated).posted = s.posted := by
  unfold initiate; split <;> rfl
theorem initiate_log (h : s.queue.state = .notWaiting) :
    (s.initiate associated).log = s.log ++ [Event.initiated s.pops] := by simp [initiate,h]

end Initiate

def goto (s : State V) (r : Running V) (pc : Pc) : State V :=
  { s with running := some { r with pc := pc } }

def finish (s : State V) : State V := { s with running := none }

/-- Submit the completion with `post`. If it ran inline, the handler would be invoked inside the
running task, and inside `async_pop`, `push` or `stop` when the task is nested there. -/
def post (s : State V) (r : Running V) (c : Completion V) : State V :=
  let handed := s.emit (.handed c.handler c.ec c.value)
  if Submission.post.inline (c.executor == some s.queue.defaultExecutor) then
    { handed.emit (.invoked c.handler r.nested) with awaiting := false }
  else { handed with posted := s.posted ++ [c] }

/-- One atomic step of the running task. -/
def advance (s : State V) (r : Running V) : State V :=
  match r.pc with
  | .body =>
    match r.task with
    | .wake _ => s.goto r .testing
    | .push v =>
      { s.emit (.pushed v) with queue := { s.queue with values := s.queue.values ++ [some v] } }.goto r .testing
    | .stop =>
      { s.emit .stopped with queue := { s.queue with ec := some .operationAborted } }.goto r .clearing
  | .clearing =>
    match s.queue.values with
    | [] => s.goto r .testing
    | v :: vs => { s.emit (.discarded v) with queue := { s.queue with values := vs } }.goto r .clearing
  | .testing => if s.queue.empty then s.finish else s.goto r .exchanging
  | .exchanging =>
    let exchanged := { s with queue := s.queue.exchange }
    if s.queue.state = .waiting then exchanged.goto r .posting else exchanged.finish
  | .posting =>
    { s.post r s.queue.completion with queue := s.queue.moveOut }.goto r
      (if s.queue.ec.isSome then .clearingEc else .popping)
  | .clearingEc => { s with queue := { s.queue with ec := none } }.finish
  | .popping => { s with queue := { s.queue with values := s.queue.values.tail } }.finish

def begin (s : State V) (i : ℕ) : Option (State V) :=
  match s.running, s.tasks[i]? with
  | none, some t => some { s with tasks := s.tasks.eraseIdx i, running := some ⟨t,.body,false⟩ }
  | _, _ => none

/-- A posted handler runs on its own executor; from then on its consumer may pop again. -/
def invoke (s : State V) (i : ℕ) : Option (State V) :=
  (s.posted[i]?).map fun c =>
    { s.emit (.invoked c.handler false) with posted := s.posted.eraseIdx i, awaiting := false }

end State

inductive Action (V : Type)
  | push (v : V) (onExecutor : Bool)
  | stop (onExecutor : Bool)
  | asyncPop (associated : Option ℕ) (onExecutor : Bool)
  | begin (i : ℕ)
  | advance
  | invoke (i : ℕ)

/-- The consumer starts a pop only after the handler of its previous pop has been invoked. -/
def machine (V : Type) : Machine (State V) (Action V) where
  start s := ∃ exec, s = State.init exec
  step s
    | .push v onExecutor => s.dispatch (.push v) onExecutor
    | .stop onExecutor => s.dispatch .stop onExecutor
    | .asyncPop associated onExecutor =>
      if s.awaiting then none else (s.initiate associated).dispatch (.wake s.pops) onExecutor
    | .begin i => s.begin i
    | .advance => s.running.map s.advance
    | .invoke i => s.invoke i

end AsyncQueue
end BeastWebsocketEcho
