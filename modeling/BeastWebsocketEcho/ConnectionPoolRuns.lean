import BeastWebsocketEcho.Chronicle
import BeastWebsocketEcho.ConnectionPool

/-!
# The pool that does not grow

The timer is never waited on: `initiate_timer` would start a wait, and nothing calls it. So the
pool gets one connection from every `handle_run`, and no other; and from the first `handle_run` on it
is a pool that should grow and does not, until it is stopped or has been run a hundred times.
-/

namespace BeastWebsocketEcho
namespace ConnectionPool

open ChatServer (Endpoint assign)

variable {B : Type*} {s t : State B}

/-- Another connection will be made: as long as the pool runs and is not full, one wait is outstanding or its completion
queued. -/
def Growing (s : State B) : Prop :=
  .ran ∈ s.log → s.ec = none → s.connections.length < 100 → s.timer.waits.length = 1

/-- Behind a stop no connection is made until the pool is run again. -/
def Allowed (before : List Event) (e : Event) : Prop :=
  e = .created → ∃ earlier later, before = earlier ++ .ran :: later ∧ .stopped ∉ later

structure Healthy (s : State B) : Prop where
  growing : Growing s
  bounded : s.connections.length ≤ 100
  allowed : Chronicle Allowed s.log

/-- `handle_run` does not run in this step. -/
def idle (s : State B) : Action B → Bool
  | .dispatch .run onExecutor _ => !onExecutor
  | .runTask i _ => s.tasks[i]? != some .run
  | _ => true

theorem length_assign_le (connections : List (Endpoint × ℕ)) (ep : Endpoint) (conn : ℕ) :
    (assign connections ep conn).length ≤ connections.length + 1 := by
  unfold assign
  split <;> simp

section Another

variable (s : State B) (o : Outcome)

@[simp] theorem anotherConnection_timer : (s.anotherConnection o).timer = s.timer := by
  unfold State.anotherConnection
  split
  · rfl
  · dsimp only
    split <;> rfl

@[simp] theorem anotherConnection_ec : (s.anotherConnection o).ec = s.ec := by
  unfold State.anotherConnection
  split
  · rfl
  · dsimp only
    split <;> rfl

theorem anotherConnection_length : (s.anotherConnection o).connections.length ≤ s.connections.length + 1 := by
  unfold State.anotherConnection
  split
  · simp [State.emit]
  · dsimp only
    split
    · simp [State.emit]
    · exact length_assign_le _ _ _

theorem anotherConnection_log :
    Grows (fun e => e = .created ∨ ∃ x, e = .threw x) s.log (s.anotherConnection o).log := by
  unfold State.anotherConnection
  split
  · exact (Grows.refl s.log).snoc (Or.inr ⟨_,rfl⟩)
  · dsimp only
    split
    · exact ((Grows.refl s.log).snoc (Or.inl rfl)).snoc (Or.inr ⟨_,rfl⟩)
    · exact (Grows.refl s.log).snoc (Or.inl rfl)

end Another

inductive Move (s : State B) (a : Action B) : State B → Prop
  | queued (task : Task) : idle s a = true → Move s a { s with tasks := s.tasks ++ [task] }
  | run (tasks : List Task) (o : Outcome) : idle s a = false → Move s a ({ s with tasks := tasks }.handleRun o)
  | stop (tasks : List Task) (o : Outcome) : idle s a = true → Move s a ({ s with tasks := tasks }.handleStop o)
  | connection (conns : List (ChatterboxConnection.State B)) : idle s a = true → Move s a { s with conns := conns }

theorem step_cases {a : Action B} (htimer : s.timer.waits = []) (hstep : step s a = some t) : Move s a t := by
  cases a with
  | dispatch task onExecutor o =>
    cases onExecutor with
    | false =>
      obtain rfl := Option.some.inj hstep
      refine Move.queued task ?_
      cases task <;> rfl
    | true =>
      obtain ⟨-,hexecute⟩ := Option.ite_none_right_eq_some.mp hstep
      obtain rfl := Option.some.inj hexecute
      cases task with
      | run => exact Move.run s.tasks o rfl
      | stop => exact Move.stop s.tasks o rfl
  | runTask i o =>
    obtain ⟨-,hexecute⟩ := Option.ite_none_right_eq_some.mp hstep
    obtain ⟨task,htask,rfl⟩ := Option.map_eq_some_iff.mp hexecute
    cases task with
    | run => exact Move.run (s.tasks.eraseIdx i) o (by simp [idle,htask])
    | stop => exact Move.stop (s.tasks.eraseIdx i) o (by simp [idle,htask])
  | timerEnds i =>
    obtain ⟨timer,htimer',-⟩ := Option.map_eq_some_iff.mp hstep
    obtain ⟨n,st,ec,hget,-,-⟩ := Timer.complete_cases htimer'
    simp [htimer] at hget
  | timed i o =>
    obtain ⟨⟨ec,timer⟩,htake,-⟩ := Option.map_eq_some_iff.mp hstep
    obtain ⟨n,hget,-⟩ := Timer.take_cases htake
    simp [htimer] at hget
  | connection i a =>
    obtain ⟨-,hconn⟩ := Option.ite_none_left_eq_some.mp hstep
    obtain ⟨c,-,hrest⟩ := Option.bind_eq_some_iff.mp hconn
    obtain ⟨d,-,rfl⟩ := Option.map_eq_some_iff.mp hrest
    exact Move.connection (s.conns.set i d) rfl

theorem Move.waits {a : Action B} (h : Move s a t) (htimer : s.timer.waits = []) : t.timer.waits = [] := by
  cases h with
  | queued => exact htimer
  | run tasks o => simpa [State.handleRun,State.emit] using htimer
  | stop tasks o => simp [State.handleStop,Timer.cancel,htimer]
  | connection => exact htimer

/-- The timer is never waited on. -/
theorem reachable_waits (h : (machine B).Reachable s) : s.timer.waits = [] := by
  refine h.invariant (I := fun s => s.timer.waits = []) ?_ ?_
  · rintro s rfl
    rfl
  · intro s a t hs ha
    exact (step_cases hs ha).waits hs

theorem growing_iff (htimer : s.timer.waits = []) :
    Growing s ↔ .ran ∉ s.log ∨ s.ec.isSome = true ∨ 100 ≤ s.connections.length := by
  have hwaits : s.timer.waits.length ≠ 1 := by simp [htimer]
  constructor
  · intro hgrowing
    by_contra hnot
    simp only [not_or,not_not,Bool.not_eq_true,Option.isSome_eq_false_iff,Option.isNone_iff_eq_none,not_le] at hnot
    exact hwaits (hgrowing hnot.1 hnot.2.1 hnot.2.2)
  · rintro (hran | hstopped | hfull) hran' hec hlength
    · exact absurd hran' hran
    · simp [hec] at hstopped
    · omega

/-- A connection is made by `handle_run`, and behind the last stop. -/
theorem Move.allowed {a : Action B} (h : Move s a t) (hlog : Chronicle Allowed s.log) : Chronicle Allowed t.log := by
  cases h with
  | queued => exact hlog
  | connection => exact hlog
  | stop tasks o => exact hlog.snoc fun he => by cases he
  | run tasks o =>
    obtain ⟨k,hk,hkind⟩ := anotherConnection_log { { s with tasks := tasks }.emit .ran with ec := none } o
    have hrun : ({ s with tasks := tasks }.handleRun o).log = (s.log ++ [Event.ran]) ++ k := hk
    rw [hrun]
    have hboth : Chronicle Allowed ((s.log ++ [Event.ran]) ++ k) ∧
        ∃ earlier later, (s.log ++ [Event.ran]) ++ k = earlier ++ .ran :: later ∧ .stopped ∉ later := by
      refine append_induction (P := fun l => Chronicle Allowed l ∧
        ∃ earlier later, l = earlier ++ Event.ran :: later ∧ .stopped ∉ later) ?_ k ?_
      · exact ⟨hlog.snoc (fun he => by cases he),s.log,[],rfl,by simp⟩
      · rintro l e he ⟨hl,earlier,later,hsplit,hrunning⟩
        refine ⟨hl.snoc fun _ => ⟨earlier,later,hsplit,hrunning⟩,earlier,later ++ [e],by simp [hsplit],?_⟩
        rcases hkind e he with rfl | ⟨x,rfl⟩ <;> simpa using hrunning
    exact hboth.1

theorem reachable_allowed (h : (machine B).Reachable s) : Chronicle Allowed s.log := by
  refine h.invariant_reachable (I := fun s => Chronicle Allowed s.log) ?_ ?_
  · rintro s rfl
    exact Chronicle.nil
  · intro s a t hr hs ha
    exact (step_cases (reachable_waits hr) ha).allowed hs

/-! ## Runs -/

structure Fresh (s : State B) : Prop where
  waits : s.timer.waits = []
  connections : s.connections = []
  allowed : Chronicle Allowed s.log
  log : .ran ∉ s.log

theorem fresh_init : Fresh (State.init : State B) := ⟨rfl,rfl,Chronicle.nil,by simp [State.init]⟩

theorem Fresh.healthy (h : Fresh s) : Healthy s where
  growing hran := absurd hran h.log
  bounded := by simp [h.connections]
  allowed := h.allowed

theorem Fresh.step {a : Action B} (h : Fresh s) (hmove : Move s a t) (hidle : idle s a = true) : Fresh t := by
  refine ⟨hmove.waits h.waits,?_,hmove.allowed h.allowed,?_⟩
  · cases hmove with
    | run tasks o hrun => cases hidle.symm.trans hrun
    | stop => rfl
    | _ => exact h.connections
  · cases hmove with
    | run tasks o hrun => cases hidle.symm.trans hrun
    | stop => simpa [State.handleStop,State.emit] using h.log
    | _ => exact h.log

/-- The first `handle_run` leaves a pool that should grow, and nothing to wait for. -/
theorem Fresh.not_growing (h : Fresh s) (tasks : List Task) (o : Outcome) :
    ¬ Growing ({ s with tasks := tasks }.handleRun o) := by
  have hwaits : ({ s with tasks := tasks }.handleRun o).timer.waits = [] := by
    simpa [State.handleRun,State.emit] using h.waits
  rw [growing_iff hwaits]
  rintro (hran | hstopped | hfull)
  · obtain ⟨k,hk,-⟩ := anotherConnection_log { { s with tasks := tasks }.emit .ran with ec := none } o
    refine hran ?_
    rw [State.handleRun,hk]
    simp [State.emit]
  · simp [State.handleRun] at hstopped
  · have hlength := anotherConnection_length { { s with tasks := tasks }.emit .ran with ec := none } o
    simp only [State.emit,h.connections,List.length_nil] at hlength
    simp only [State.handleRun,State.emit,h.connections] at hfull
    omega

theorem healthy_step_iff {a : Action B} (h : Fresh s) (hstep : step s a = some t) : Healthy t ↔ idle s a = true := by
  have hmove := step_cases h.waits hstep
  constructor
  · intro hhealthy
    cases hmove with
    | run tasks o => exact absurd hhealthy.growing (h.not_growing tasks o)
    | queued task hidle => exact hidle
    | stop tasks o hidle => exact hidle
    | connection conns hidle => exact hidle
  · intro hidle
    exact (h.step hmove hidle).healthy

/-- The pool is as it should be in every state of a run exactly if `handle_run` does not run in it. -/
theorem pool_healthy_iff {as : List (Action B)} (h : Machine.Exec (machine B) State.init as s) :
    ((machine B).Along (fun _ _ t => Healthy t) State.init as ↔
      Machine.Exec ((machine B).restrict idle) State.init as s) ∧
    (Growing s ↔ .ran ∉ s.log ∨ s.ec.isSome = true ∨ 100 ≤ s.connections.length) := by
  constructor
  · refine h.along_iff_of_kept (I := Fresh) ?_ ?_ fresh_init
    · intro s a t hs ha hidle
      exact hs.step (step_cases hs.waits ha) hidle
    · intro s a t hs ha
      exact healthy_step_iff hs ha
  · exact growing_iff (reachable_waits ⟨State.init,as,rfl,h⟩)

def made : Outcome := ⟨.ok (.ok ⟨"0.0.0.0",49152⟩),[],false⟩

def runOnce : List (Action ℕ) := [.dispatch .run false made,.runTask 0 made]

def stopOnly : List (Action ℕ) := [.dispatch .stop false made,.runTask 0 made]

theorem pool_healthy_iff_runOnce : ∃ s t, (machine ℕ).replay State.init runOnce = some s ∧
    ¬ (machine ℕ).Along (fun _ _ t => Healthy t) State.init runOnce ∧
    (Growing s ↔ .ran ∉ s.log ∨ s.ec.isSome = true ∨ 100 ≤ s.connections.length) ∧
    (machine ℕ).replay State.init stopOnly = some t ∧
    (machine ℕ).Along (fun _ _ t => Healthy t) State.init stopOnly := by
  have hrun : (machine ℕ).replay State.init runOnce = some _ := rfl
  have hstop : (machine ℕ).replay State.init stopOnly = some _ := rfl
  have hruns := pool_healthy_iff (Machine.Exec.of_replay hrun)
  have hidle : ((machine ℕ).restrict idle).replay State.init stopOnly = some _ := rfl
  refine ⟨_,_,hrun,fun halong => ?_,hruns.2,hstop,
    (pool_healthy_iff (Machine.Exec.of_replay hstop)).1.mpr (Machine.Exec.of_replay hidle)⟩
  -- the task that the first step leaves is `handle_run`
  cases hruns.1.mp halong with
  | succ hfirst hrest =>
    obtain rfl := Option.some.inj (Machine.restrict_step_iff.mp hfirst).2
    cases hrest with
    | succ hsecond _ => exact absurd (Machine.restrict_step_iff.mp hsecond).1 (by decide)

/-- The pool runs, has one connection, and nothing will give it another one. -/
theorem pool_stops_growing : ¬ ∀ s, (machine ℕ).Reachable s → Healthy s := by
  intro h
  have hrun : (machine ℕ).replay State.init runOnce = some _ := rfl
  have hwaits := (h _ (Machine.Reachable.of_replay rfl hrun)).growing (by decide) rfl (by decide)
  exact absurd hwaits (by decide)

end ConnectionPool
end BeastWebsocketEcho
