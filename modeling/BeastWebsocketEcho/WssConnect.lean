import BeastWebsocketEcho.Chronicle
import BeastWebsocketEcho.Net

/-!
# The connect operation of the websocket transport

`wss_transport::connect_op`, a stackless coroutine that is entered again with the result of
every step it has started. The error test stands before the `reenter` block and does not
return, so an operation that has failed goes on from its resume point. The operation is
followed through all of its entries, for any outcomes of its steps.
-/

namespace BeastWebsocketEcho
namespace WssConnect

inductive Step
  | resolve | connect | tlsHandshake | websocketHandshake
  deriving DecidableEq, Repr

/-- Where the next entry resumes: at the start, behind a `yield`, or nowhere. -/
inductive Point
  | start | resolved | connected | secured | opened | completed | terminated
  deriving DecidableEq, Repr

inductive Event
  | started (step : Step)
  | completed (ec : ErrorCode)
  deriving DecidableEq

structure Op where
  point : Point
  outstanding : Option Step
  log : List Event

/-- What the steps come to; `hostName` is the error of setting the TLS host name, if that fails. -/
structure Outcomes where
  result : Step → ErrorCode
  hostName : ErrorCode

namespace Op

def complete (op : Op) (ec : ErrorCode) : Op := { op with log := op.log ++ [.completed ec] }

def yieldTo (op : Op) (step : Step) (point : Point) : Op :=
  { op with point := point, outstanding := some step, log := op.log ++ [.started step] }

/-- `operator()`: the error test, and the `reenter` block from its resume point to the next `yield`. -/
def enter (op : Op) (ec hostName : ErrorCode) : Op :=
  let op := if ec.isSome then op.complete ec else op
  match op.point with
  | .start => op.yieldTo .resolve .resolved
  | .resolved => op.yieldTo .connect .connected
  | .connected =>
    match hostName with
    | some e => { op.complete (some e) with point := .terminated }
    | none => op.yieldTo .tlsHandshake .secured
  | .secured => op.yieldTo .websocketHandshake .opened
  | .opened => { op.complete ec with point := .completed }
  | .completed => { op with point := .terminated }
  | .terminated => op

/-- The outstanding step ends and enters the operation with its result. -/
def resume (o : Outcomes) (op : Op) : Op :=
  match op.outstanding with
  | none => op
  | some step => { op with outstanding := none }.enter (o.result step) o.hostName

def begin : Op := Op.enter ⟨.start,none,[]⟩ none none

end Op

/-- The whole operation: it has at most four steps to wait for. -/
def run (o : Outcomes) : Op := (Op.resume o)^[4] Op.begin

def firstError (o : Outcomes) : ErrorCode :=
  [o.result .resolve,o.result .connect,o.hostName,o.result .tlsHandshake,o.result .websocketHandshake].findSome? id

@[simp] def Event.completed? : Event → Option ErrorCode
  | .completed ec => some ec
  | .started _ => none

def completions (log : List Event) : List ErrorCode := log.filterMap Event.completed?

section Logs

variable (l k : List Event) (e : Event)

@[simp] theorem completions_nil : completions [] = [] := rfl
@[simp] theorem completions_append : completions (l ++ k) = completions l ++ completions k := List.filterMap_append
@[simp] theorem completions_cons : completions (e :: l) = e.completed?.toList ++ completions l :=
  filterMap_cons_toList _ _ _

end Logs

/-- `self.complete` is called once, with the first error or with success, and no step is started after it. -/
structure CompletesOnce (o : Outcomes) (log : List Event) : Prop where
  once : completions log = [firstError o]
  last : ∀ before ec after, log = before ++ .completed ec :: after → ∀ step, .started step ∉ after

/-- The completion that the error test makes. -/
def tested : ErrorCode → List Event
  | some e => [.completed (some e)]
  | none => []

@[simp] theorem tested_none : tested none = [] := rfl
@[simp] theorem tested_some (e : Error) : tested (some e) = [.completed (some e)] := rfl

section Entries

variable (log : List Event) (ec hostName : ErrorCode)

@[simp] theorem enter_resolved : (⟨.resolved,none,log⟩ : Op).enter ec hostName =
    ⟨.connected,some .connect,log ++ tested ec ++ [Event.started .connect]⟩ := by
  cases ec <;> simp [Op.enter,Op.complete,Op.yieldTo]

@[simp] theorem enter_connected : (⟨.connected,none,log⟩ : Op).enter ec none =
    ⟨.secured,some .tlsHandshake,log ++ tested ec ++ [Event.started .tlsHandshake]⟩ := by
  cases ec <;> simp [Op.enter,Op.complete,Op.yieldTo]

/-- Without a host name the coroutine returns out of its block. -/
@[simp] theorem enter_connected_hostName (e : Error) : (⟨.connected,none,log⟩ : Op).enter ec (some e) =
    ⟨.terminated,none,log ++ tested ec ++ [Event.completed (some e)]⟩ := by
  cases ec <;> simp [Op.enter,Op.complete]

@[simp] theorem enter_secured : (⟨.secured,none,log⟩ : Op).enter ec hostName =
    ⟨.opened,some .websocketHandshake,log ++ tested ec ++ [Event.started .websocketHandshake]⟩ := by
  cases ec <;> simp [Op.enter,Op.complete,Op.yieldTo]

@[simp] theorem enter_opened : (⟨.opened,none,log⟩ : Op).enter ec hostName =
    ⟨.completed,none,log ++ tested ec ++ [Event.completed ec]⟩ := by
  cases ec <;> simp [Op.enter,Op.complete]

theorem begin_eq : Op.begin = ⟨.resolved,some .resolve,[.started .resolve]⟩ := rfl

theorem resume_outstanding (o : Outcomes) (point : Point) (step : Step) :
    Op.resume o ⟨point,some step,log⟩ = (⟨point,none,log⟩ : Op).enter (o.result step) o.hostName := rfl

theorem resume_ended (o : Outcomes) (point : Point) : Op.resume o ⟨point,none,log⟩ = ⟨point,none,log⟩ := rfl

end Entries

theorem run_eq (o : Outcomes) : run o =
    match o.hostName with
    | some e => ⟨.terminated,none,[.started .resolve] ++ tested (o.result .resolve) ++ [Event.started .connect] ++
        tested (o.result .connect) ++ [.completed (some e)]⟩
    | none => ⟨.completed,none,[.started .resolve] ++ tested (o.result .resolve) ++ [Event.started .connect] ++
        tested (o.result .connect) ++ [Event.started .tlsHandshake] ++ tested (o.result .tlsHandshake) ++
        [Event.started .websocketHandshake] ++ tested (o.result .websocketHandshake) ++
        [.completed (o.result .websocketHandshake)]⟩ := by
  unfold run
  rw [begin_eq]
  cases hname : o.hostName with
  | none =>
    simp only [Function.iterate_succ,Function.comp_apply,Function.iterate_zero,id_eq,resume_outstanding,hname,
      enter_resolved,enter_connected,enter_secured,enter_opened]
  | some e =>
    simp only [Function.iterate_succ,Function.comp_apply,Function.iterate_zero,id_eq,resume_outstanding,hname,
      enter_resolved,enter_connected_hostName,resume_ended]

def failures (ec : ErrorCode) : ℕ := if ec.isSome then 1 else 0

theorem length_tested (ec : ErrorCode) : (completions (tested ec)).length = failures ec := by
  cases ec <;> rfl

theorem failures_eq_zero {ec : ErrorCode} : failures ec = 0 ↔ ec = none := by cases ec <;> simp [failures]

/-- Every failed step that the operation comes to is one completion, and its end is another. -/
theorem completions_run (o : Outcomes) : (completions (run o).log).length =
    failures (o.result .resolve) + failures (o.result .connect) + 1 +
      if o.hostName = none then failures (o.result .tlsHandshake) + failures (o.result .websocketHandshake) else 0 := by
  rw [run_eq]
  cases o.hostName with
  | some e => simp [length_tested,Nat.add_assoc]
  | none =>
    simp [length_tested]
    omega

/-- Where the only completion stands at the end, no step comes after it. -/
theorem last_of_end {before : List Event} (hbefore : ∀ ec, .completed ec ∉ before) (ec : ErrorCode) :
    ∀ init ec' after, before ++ [.completed ec] = init ++ .completed ec' :: after → ∀ step, .started step ∉ after := by
  intro init ec' after heq step
  rcases List.eq_nil_or_concat after with rfl | ⟨rest,last,rfl⟩
  · simp
  · have hsplit : before ++ [.completed ec] = (init ++ .completed ec' :: rest) ++ [last] := by simpa using heq
    obtain ⟨rfl,-⟩ := List.append_inj' hsplit rfl
    exact absurd (by simp) (hbefore ec')

/-- The connect operation completes exactly once, and starts nothing after that, if and only if no asynchronous
step that it comes to fails. -/
theorem completes_once_iff (o : Outcomes) : CompletesOnce o (run o).log ↔
    o.result .resolve = none ∧ o.result .connect = none ∧
      (o.hostName ≠ none ∨ o.result .tlsHandshake = none ∧ o.result .websocketHandshake = none) := by
  constructor
  · intro h
    have hlength := completions_run o
    rw [h.once,List.length_singleton] at hlength
    have hresolve : failures (o.result .resolve) = 0 := by omega
    have hconnect : failures (o.result .connect) = 0 := by omega
    refine ⟨failures_eq_zero.mp hresolve,failures_eq_zero.mp hconnect,?_⟩
    by_cases hname : o.hostName = none
    · rw [if_pos hname] at hlength
      have htls : failures (o.result .tlsHandshake) = 0 := by omega
      have hwebsocket : failures (o.result .websocketHandshake) = 0 := by omega
      exact Or.inr ⟨failures_eq_zero.mp htls,failures_eq_zero.mp hwebsocket⟩
    · exact Or.inl hname
  · rintro ⟨hresolve,hconnect,hrest⟩
    rw [run_eq]
    cases hname : o.hostName with
    | some e =>
      refine ⟨by simp [hresolve,hconnect,hname,firstError],last_of_end ?_ _⟩
      simp [hresolve,hconnect]
    | none =>
      obtain ⟨htls,hwebsocket⟩ := hrest.resolve_left (by simp [hname])
      refine ⟨by simp [hresolve,hconnect,hname,htls,hwebsocket,firstError],last_of_end ?_ _⟩
      simp [hresolve,hconnect,htls,hwebsocket]

def unresolved : Outcomes := ⟨fun _ => some (.other 1),none⟩

theorem completes_again : ¬ ∀ o, CompletesOnce o (run o).log := by
  intro h
  have honce := (h unresolved).once
  simp [run_eq,unresolved,firstError] at honce

end WssConnect
end BeastWebsocketEcho
