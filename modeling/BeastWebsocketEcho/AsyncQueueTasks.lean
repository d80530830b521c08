import BeastWebsocketEcho.AsyncQueueFifo

/-!
# Queue tasks run without interruption

Where one thread runs every handler, nothing falls between the steps of a queue task,
and a task is its body followed by the whole of `maybe_complete`. `serve_exec` and
`runNow_exec` show that such a task is a run of the queue machine, so that the
invariants of that machine hold of a queue used in this way.
-/

namespace BeastWebsocketEcho
namespace AsyncQueue

variable {V : Type}

namespace State

def serve (s : State V) : State V :=
  let r := s.queue.maybeComplete
  { s with
    queue := r.1
    posted := s.posted ++ r.2.toList
    log := s.log ++ r.2.toList.map fun c => .handed c.handler c.ec c.value }

def runNow (s : State V) : Task V → State V
  | .wake _ => s.serve
  | .push v =>
    { s with
      queue := { s.queue with values := s.queue.values ++ [some v] }
      log := s.log ++ [Event.pushed v] }.serve
  | .stop =>
    { s with
      queue := { s.queue with ec := some .operationAborted }.clear
      log := s.log ++ Event.stopped :: s.queue.values.map Event.discarded }.serve

def call (s : State V) (t : Task V) (inline : Bool) : State V :=
  if inline then s.runNow t else { s with tasks := s.tasks ++ [t] }

def pop (s : State V) (inline : Bool) : State V := (s.initiate none).call (.wake s.pops) inline

def runTask (s : State V) (i : ℕ) : Option (State V) :=
  (s.tasks[i]?).map fun t => { s with tasks := s.tasks.eraseIdx i }.runNow t

end State

theorem exec_advance {s t : State V} {r : Running V} (hr : s.running = some r) (ht : s.advance r = t) :
    Machine.Exec (machine V) s [.advance] t := by
  refine Machine.Exec.single ?_
  simp [machine,hr,ht]

theorem serve_exec (s : State V) (task : Task V) (n : Bool) (hr : s.running = some ⟨task,.testing,n⟩) :
    ∃ as, Machine.Exec (machine V) s as s.serve.finish := by
  cases he : s.queue.empty with
  | true =>
    have h₁ := exec_advance hr (by simp [State.advance,he] : s.advance ⟨task,.testing,n⟩ = s.finish)
    exact ⟨_,by simpa [State.serve,Impl.maybeComplete,he] using h₁⟩
  | false =>
    let s₁ := s.goto ⟨task,.testing,n⟩ .exchanging
    have h₁ : Machine.Exec (machine V) s [.advance] s₁ :=
      exec_advance hr (by simp [State.advance,he,s₁])
    cases hw : s.queue.state with
    | notWaiting =>
      have h₂ : Machine.Exec (machine V) s₁ [.advance] s.serve.finish :=
        exec_advance rfl (by simp [State.advance,s₁,State.goto,hw,State.serve,Impl.maybeComplete,he,State.finish])
      exact ⟨_,h₁.trans h₂⟩
    | waiting =>
      let s₂ := { s with queue := s.queue.exchange }.goto ⟨task,.exchanging,n⟩ .posting
      have h₂ : Machine.Exec (machine V) s₁ [.advance] s₂ :=
        exec_advance rfl (by simp [State.advance,s₁,s₂,State.goto,hw])
      let s₃ := s₂.advance ⟨task,.posting,n⟩
      have h₃ : Machine.Exec (machine V) s₂ [.advance] s₃ := exec_advance rfl rfl
      have h₄ : Machine.Exec (machine V) s₃ [.advance] s.serve.finish := by
        cases hec : s.queue.ec with
        | some e =>
          refine exec_advance (r := ⟨task,.clearingEc,n⟩) ?_ ?_
          · simp [s₃,s₂,State.advance,State.goto,Impl.exchange,hec]
          · simp [s₃,s₂,State.advance,State.goto,State.post,State.emit,State.finish,State.serve,
              Impl.maybeComplete,he,hw,Impl.exchange,Impl.moveOut,Impl.remove,Impl.completion,hec]
        | none =>
          refine exec_advance (r := ⟨task,.popping,n⟩) ?_ ?_
          · simp [s₃,s₂,State.advance,State.goto,Impl.exchange,hec]
          · simp [s₃,s₂,State.advance,State.goto,State.post,State.emit,State.finish,State.serve,
              Impl.maybeComplete,he,hw,Impl.exchange,Impl.moveOut,Impl.remove,Impl.completion,hec]
      exact ⟨_,((h₁.trans h₂).trans h₃).trans h₄⟩

/-- The loop of `stop`, by induction on the values it removes. -/
theorem clear_exec (n : Bool) (values : List (Option V)) (s : State V) (hv : s.queue.values = values)
    (hr : s.running = some ⟨.stop,.clearing,n⟩) :
    ∃ as, Machine.Exec (machine V) s as
      { s with
        queue := s.queue.clear
        running := some ⟨.stop,.testing,n⟩
        log := s.log ++ values.map Event.discarded } := by
  induction values generalizing s with
  | nil =>
    refine ⟨_,exec_advance hr ?_⟩
    have hclear : s.queue.clear = s.queue := by simp [Impl.clear,← hv]
    simp [State.advance,hv,State.goto,hclear]
  | cons v vs ih =>
    let s₁ := s.advance ⟨.stop,.clearing,n⟩
    have h₁ : Machine.Exec (machine V) s [.advance] s₁ := exec_advance hr rfl
    obtain ⟨as,h₂⟩ := ih s₁ (by simp [s₁,State.advance,hv,State.goto])
      (by simp [s₁,State.advance,hv,State.goto])
    refine ⟨_,h₁.trans (by simpa [s₁,State.advance,hv,State.goto,State.emit,Impl.clear] using h₂)⟩

theorem runNow_exec (s : State V) (t : Task V) (n : Bool) (hr : s.running = some ⟨t,.body,n⟩) :
    ∃ as, Machine.Exec (machine V) s as (s.runNow t).finish := by
  cases t with
  | wake p =>
    have h₁ : Machine.Exec (machine V) s [.advance] (s.goto ⟨.wake p,.body,n⟩ .testing) := exec_advance hr rfl
    obtain ⟨as,h₂⟩ := serve_exec (s.goto ⟨.wake p,.body,n⟩ .testing) (.wake p) n rfl
    exact ⟨_,h₁.trans h₂⟩
  | push v =>
    have h₁ := exec_advance hr rfl
    obtain ⟨as,h₂⟩ := serve_exec (s.advance ⟨.push v,.body,n⟩) (.push v) n rfl
    exact ⟨_,h₁.trans h₂⟩
  | stop =>
    let s₁ := s.advance ⟨.stop,.body,n⟩
    have h₁ : Machine.Exec (machine V) s [.advance] s₁ := exec_advance hr rfl
    obtain ⟨as,h₂⟩ := clear_exec n s.queue.values s₁ rfl rfl
    let s₂ : State V := { s₁ with
      queue := s₁.queue.clear
      running := some ⟨.stop,.testing,n⟩
      log := s₁.log ++ s.queue.values.map Event.discarded }
    obtain ⟨bs,h₃⟩ := serve_exec s₂ .stop n rfl
    have hsame : s₂.serve.finish = (s.runNow .stop).finish := by
      simp [s₂,s₁,State.runNow,State.advance,State.goto,State.emit,State.serve,State.finish,Impl.clear]
    exact ⟨_,(h₁.trans h₂).trans (hsame ▸ h₃)⟩

theorem finish_runNow (s : State V) (t : Task V) (r : Option (Running V)) (hr : s.running = none) :
    ({ s with running := r }.runNow t).finish = s.runNow t := by
  cases t <;> simp [State.runNow,State.serve,State.finish,hr]

/-- Dispatching a task, inline or for later, after a call that led from `s` to `u`. -/
theorem dispatch_exec {s u : State V} {a : Bool → Action V} {t : Task V} (inline : Bool)
    (hstep : ∀ onExecutor, (machine V).step s (a onExecutor) = u.dispatch t onExecutor)
    (hr : u.running = none) : ∃ as, Machine.Exec (machine V) s as (u.call t inline) := by
  cases inline with
  | false => exact ⟨_,Machine.Exec.single ((hstep false).trans rfl)⟩
  | true =>
    have h₁ : (machine V).step s (a true) = some { u with running := some ⟨t,.body,true⟩ } := by
      rw [hstep true]
      simp [State.dispatch,hr]
    obtain ⟨as,h₂⟩ := runNow_exec { u with running := some ⟨t,.body,true⟩ } t true rfl
    rw [finish_runNow u t _ hr] at h₂
    exact ⟨_,(Machine.Exec.single h₁).trans h₂⟩

theorem push_exec (s : State V) (v : V) (inline : Bool) (hr : s.running = none) :
    ∃ as, Machine.Exec (machine V) s as (s.call (.push v) inline) :=
  dispatch_exec (a := .push v) inline (fun _ => rfl) hr

theorem stop_exec (s : State V) (inline : Bool) (hr : s.running = none) :
    ∃ as, Machine.Exec (machine V) s as (s.call .stop inline) :=
  dispatch_exec (a := .stop) inline (fun _ => rfl) hr

theorem pop_exec (s : State V) (inline : Bool) (hr : s.running = none) (ha : s.awaiting = false) :
    ∃ as, Machine.Exec (machine V) s as (s.pop inline) :=
  dispatch_exec (a := .asyncPop none) inline (fun _ => by simp [machine,ha]) (by simpa using hr)

theorem runTask_exec {s t : State V} {i : ℕ} (hr : s.running = none) (h : s.runTask i = some t) :
    ∃ as, Machine.Exec (machine V) s as t := by
  obtain ⟨task,htask,rfl⟩ := Option.map_eq_some_iff.mp h
  let u : State V := { s with tasks := s.tasks.eraseIdx i }
  have h₁ : (machine V).step s (.begin i) = some { u with running := some ⟨task,.body,false⟩ } := by
    simp [machine,State.begin,hr,htask,u]
  obtain ⟨as,h₂⟩ := runNow_exec { u with running := some ⟨task,.body,false⟩ } task false rfl
  rw [finish_runNow u task _ hr] at h₂
  exact ⟨_,(Machine.Exec.single h₁).trans h₂⟩

theorem invoke_exec {s : State V} {i : ℕ} {c : Completion V} (hc : s.posted[i]? = some c) :
    Machine.Exec (machine V) s [.invoke i]
      { s with
        posted := s.posted.eraseIdx i
        awaiting := false
        log := s.log ++ [Event.invoked c.handler false] } :=
  Machine.Exec.single (by simp [machine,State.invoke,hc,State.emit])

end AsyncQueue
end BeastWebsocketEcho
