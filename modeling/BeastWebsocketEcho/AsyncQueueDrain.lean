import BeastWebsocketEcho.AsyncQueueHandlesRuns

/-!
# The queue comes to rest

Left to itself, without another call from outside, the queue runs its tasks and the posted handlers
and comes to rest. By then every push has taken effect, and the last pop waits only if nothing is
left for it.
-/

namespace BeastWebsocketEcho
namespace AsyncQueue

variable {V : Type} {s t : State V}

def own : Action V → Bool
  | .begin _ | .advance | .invoke _ => true
  | .push _ _ | .stop _ | .asyncPop _ _ => false

def alone (V : Type) : Machine (State V) (Action V) := (machine V).restrict fun _ a => own a

/-- The steps that are left from here on, without those of the loop of `stop`; posting leaves a handler to invoke. -/
def Pc.load : Pc → ℕ
  | .body => 7
  | .clearing => 6
  | .testing => 5
  | .exchanging => 4
  | .posting => 3
  | .clearingEc | .popping => 1

/-- A bound for the steps that the executors can take. -/
def State.load (s : State V) : ℕ :=
  8 * s.tasks.length + s.queue.values.length + (s.running.map fun r => r.pc.load).getD 0 + s.posted.length

def Task.pushes : Task V → List V
  | .push v => [v]
  | .wake _ | .stop => []

def Running.pushes (r : Running V) : List V := if r.pc = .body then r.task.pushes else []

def State.due (s : State V) : List V := s.tasks.flatMap Task.pushes ++ (s.running.map Running.pushes).getD []

structure Settled (s : State V) : Prop where
  running : s.running = none
  tasks : s.tasks = []
  posted : s.posted = []

section Advance

variable {r : Running V}

theorem load_advance (hr : s.running = some r) : (s.advance r).load < s.load := by
  obtain ⟨task,pc,n⟩ := r
  cases pc with
  | body =>
    cases task with
    | wake p => simp [State.advance,State.goto,State.load,Pc.load,hr]
    | stop => simp [State.advance,State.goto,State.emit,State.load,Pc.load,hr]
    | push v =>
      simp only [State.advance,State.goto,State.emit,State.load,Pc.load,hr,Option.map_some,Option.getD_some,
        List.length_append,List.length_singleton]
      omega
  | clearing => cases hv : s.queue.values <;> simp [State.advance,State.goto,State.emit,State.load,Pc.load,hr,hv]
  | testing => cases he : s.queue.empty <;> simp [State.advance,State.goto,State.finish,State.load,Pc.load,hr,he]
  | exchanging =>
    cases hw : s.queue.state <;> simp [State.advance,State.goto,State.finish,State.load,Pc.load,Impl.exchange,hr,hw]
  | posting =>
    cases he : s.queue.ec <;> cases hv : s.queue.values <;>
      simp [State.advance,State.goto,State.post,State.emit,State.load,Pc.load,Impl.moveOut,hr,he,hv] <;> omega
  | clearingEc => simp [State.advance,State.finish,State.load,Pc.load,hr]
  | popping => simp [State.advance,State.finish,State.load,Pc.load,hr]

theorem due_advance (hr : s.running = some r) :
    (pushed (s.advance r).log ++ (s.advance r).due).Perm (pushed s.log ++ s.due) := by
  obtain ⟨task,pc,n⟩ := r
  cases pc with
  | body =>
    cases task with
    | push v =>
      have hperm := List.perm_append_singleton v (s.tasks.flatMap Task.pushes)
      simpa [State.advance,State.goto,State.emit,State.due,Running.pushes,Task.pushes,hr] using
        hperm.symm.append_left (pushed s.log)
    | wake p => simp [State.advance,State.goto,State.due,Running.pushes,Task.pushes,hr]
    | stop => simp [State.advance,State.goto,State.emit,State.due,Running.pushes,Task.pushes,hr]
  | clearing => cases hv : s.queue.values <;> simp [State.advance,State.goto,State.emit,State.due,Running.pushes,hr,hv]
  | testing => cases he : s.queue.empty <;> simp [State.advance,State.goto,State.finish,State.due,Running.pushes,hr,he]
  | exchanging =>
    cases hw : s.queue.state <;> simp [State.advance,State.goto,State.finish,State.due,Running.pushes,hr,hw]
  | posting =>
    cases he : s.queue.ec <;>
      simp [State.advance,State.goto,State.post,State.emit,State.due,Running.pushes,Impl.completion,hr,he]
  | clearingEc => simp [State.advance,State.finish,State.due,Running.pushes,hr]
  | popping => simp [State.advance,State.finish,State.due,Running.pushes,hr]

end Advance

section Alone

variable {a : Action V} {as : List (Action V)}

theorem alone_cases (h : (alone V).step s a = some t) :
    (∃ i, s.begin i = some t) ∨ (∃ r, s.running = some r ∧ t = s.advance r) ∨ ∃ i, s.invoke i = some t := by
  obtain ⟨hown,hstep⟩ := Machine.restrict_step_iff.mp h
  cases a with
  | push v onExecutor => simp [own] at hown
  | stop onExecutor => simp [own] at hown
  | asyncPop associated onExecutor => simp [own] at hown
  | begin i => exact Or.inl ⟨i,hstep⟩
  | advance =>
    obtain ⟨r,hr,rfl⟩ := Option.map_eq_some_iff.mp hstep
    exact Or.inr (Or.inl ⟨r,hr,rfl⟩)
  | invoke i => exact Or.inr (Or.inr ⟨i,hstep⟩)

theorem load_step (h : (alone V).step s a = some t) : t.load < s.load := by
  rcases alone_cases h with ⟨i,hbegin⟩ | ⟨r,hr,rfl⟩ | ⟨i,hinvoke⟩
  · obtain ⟨hr,task,ht,rfl⟩ := begin_cases hbegin
    have hlt : i < s.tasks.length := (List.getElem?_eq_some_iff.mp ht).1
    simp [State.load,Pc.load,hr,List.length_eraseIdx_of_lt hlt]
    omega
  · exact load_advance hr
  · obtain ⟨c,hc,rfl⟩ := Option.map_eq_some_iff.mp hinvoke
    have hlt : i < s.posted.length := (List.getElem?_eq_some_iff.mp hc).1
    simp [State.load,State.emit,List.length_eraseIdx_of_lt hlt]
    omega

theorem due_step (h : (alone V).step s a = some t) : (pushed t.log ++ t.due).Perm (pushed s.log ++ s.due) := by
  rcases alone_cases h with ⟨i,hbegin⟩ | ⟨r,hr,rfl⟩ | ⟨i,hinvoke⟩
  · obtain ⟨hr,task,ht,rfl⟩ := begin_cases hbegin
    obtain ⟨hlt,rfl⟩ := List.getElem?_eq_some_iff.mp ht
    apply List.Perm.append_left
    have hperm : (s.tasks[i] :: s.tasks.eraseIdx i).Perm s.tasks := List.getElem_cons_eraseIdx_perm hlt
    have hflat := hperm.flatMap_right Task.pushes
    simp only [State.due,hr,Option.map_some,Option.map_none,Option.getD_some,Option.getD_none,List.append_nil]
    exact List.perm_append_comm.trans hflat
  · exact due_advance hr
  · obtain ⟨c,hc,rfl⟩ := Option.map_eq_some_iff.mp hinvoke
    simp [State.due,State.emit]

theorem settled_iff : (∀ a, (alone V).step s a = none) ↔ Settled s := by
  constructor
  · intro h
    have hrunning : s.running = none := by simpa [alone,Machine.restrict,own,machine] using h .advance
    have htasks : s.tasks[0]? = none := by
      have hbegin : s.begin 0 = none := by simpa [alone,Machine.restrict,own,machine] using h (.begin 0)
      cases ht : s.tasks[0]? with
      | none => rfl
      | some task => simp [State.begin,hrunning,ht] at hbegin
    have hposted : s.posted[0]? = none := by
      simpa [alone,Machine.restrict,own,machine,State.invoke] using h (.invoke 0)
    exact ⟨hrunning,by simpa using htasks,by simpa using hposted⟩
  · rintro h a
    by_contra hne
    obtain ⟨t,ht⟩ := Option.ne_none_iff_exists'.mp hne
    rcases alone_cases ht with ⟨i,hbegin⟩ | ⟨r,hr,rfl⟩ | ⟨i,hinvoke⟩
    · obtain ⟨-,task,htask,-⟩ := begin_cases hbegin
      simp [h.tasks] at htask
    · simp [h.running] at hr
    · simp [State.invoke,h.posted] at hinvoke

end Alone

/-- At rest the handlers of all pops were invoked, except that of a last pop that still waits. -/
theorem invoked_of_settled (h : (machine V).Reachable s) (hs : Settled s) :
    invoked s.log = firstHandlers (if s.awaiting then s.pops - 1 else s.pops) := by
  have hdelivers : invoked s.log = handed s.log := by simpa [Delivers,hs.posted] using reachable_delivers h
  rw [hdelivers]
  cases reachable_phase h with
  | idle hawait _ _ _ _ hhanded => simp [hawait,hhanded]
  | waiting p hpops hawait _ _ _ _ hhanded => simp [hawait,hpops,hhanded]
  | serving p _ _ _ _ _ hpc => simp [State.pc,hs.running] at hpc
  | posted p c _ _ _ _ hposted => simp [hs.posted] at hposted

theorem empty_of_settled (h : (machine V).Reachable s) (hs : Settled s) (ha : s.awaiting = true) :
    s.queue.state = .waiting ∧ s.queue.empty = true := by
  have hstate : s.queue.state = .waiting := by
    cases reachable_phase h with
    | idle h₁ => simp [h₁] at ha
    | waiting p _ _ h₃ => exact h₃
    | serving p _ _ _ _ _ h₆ => simp [State.pc,hs.running] at h₆
    | posted p c _ _ _ _ h₅ => simp [hs.posted] at h₅
  refine ⟨hstate,?_⟩
  by_contra hne
  rcases reachable_woken h hstate (by simpa using hne) with htasks | ⟨pc,hpc,-⟩
  · exact htasks hs.tasks
  · simp [State.pc,hs.running] at hpc

/-- Left alone the queue comes to rest, in no more steps than its load, however its executors take turns. When they
have nothing to do, all pushes have taken effect, and every pop has been answered except a last one for which there is
neither a value nor an error. -/
theorem drains (h : (machine V).Reachable s) :
    (∀ as t, Machine.Exec (alone V) s as t → as.length ≤ s.load) ∧
      (∃ as t, Machine.Exec (alone V) s as t ∧ Settled t) ∧
      ∀ as t, Machine.Exec (alone V) s as t → (∀ a, (alone V).step t a = none) →
        Settled t ∧ (pushed t.log).Perm (pushed s.log ++ s.due) ∧
          invoked t.log = firstHandlers (if t.awaiting then t.pops - 1 else t.pops) ∧
          (t.awaiting = true → t.queue.state = .waiting ∧ t.queue.empty = true) := by
  refine ⟨?_,?_,?_⟩
  · intro as t hexec
    have hlength := hexec.length_le fun s a t ha => load_step ha
    omega
  · obtain ⟨as,t,hexec,hend⟩ := Machine.exists_settled (fun s a t ha => load_step ha) s
    exact ⟨as,t,hexec,settled_iff.mp hend⟩
  · intro as t hexec hend
    have hsettled : Settled t := settled_iff.mp hend
    have hreach : (machine V).Reachable t := by
      refine hexec.invariant (I := (machine V).Reachable) ?_ h
      intro u a v hu hstep
      exact hu.step (Machine.restrict_step_iff.mp hstep).2
    have hdue : (pushed t.log ++ t.due).Perm (pushed s.log ++ s.due) := by
      refine hexec.invariant (I := fun u => (pushed u.log ++ u.due).Perm (pushed s.log ++ s.due)) ?_ (List.Perm.refl _)
      intro u a v hu hstep
      exact (due_step hstep).trans hu
    have hpushed : (pushed t.log).Perm (pushed s.log ++ s.due) := by
      simpa [State.due,hsettled.tasks,hsettled.running] using hdue
    exact ⟨hsettled,hpushed,invoked_of_settled hreach hsettled,empty_of_settled hreach hsettled⟩

def popThenPushes : List (Action String) := [.asyncPop (some 1) false,.push "a" false,.push "b" false]

def called : State String where
  queue := (Impl.construct 0).asyncPop 0 (some 1)
  tasks := [.wake 0,.push "a",.push "b"]
  running := none
  posted := []
  pops := 1
  awaiting := true
  log := [.initiated 0]

def serving : List (Action String) :=
  [.begin 0,.advance,.advance,.begin 0,.advance,.advance,.advance,.advance,.advance,
    .begin 0,.advance,.advance,.advance,.invoke 0]

def served : State String where
  queue := ⟨.notWaiting,none,some 1,[some "b"],none,0⟩
  tasks := []
  running := none
  posted := []
  pops := 1
  awaiting := false
  log := [.initiated 0,.pushed "a",.handed (some 0) none (some "a"),.pushed "b",.invoked (some 0) false]

theorem drains_popThenPushes : (∀ as t, Machine.Exec (alone String) called as t → as.length ≤ 24) ∧
    (pushed served.log).Perm ["a","b"] ∧ invoked served.log = [some 0] := by
  have hcalled : (machine String).replay (State.init 0) popThenPushes = some called := rfl
  have hserved : (alone String).replay called serving = some served := rfl
  have h := drains (Machine.Reachable.of_replay ⟨0,rfl⟩ hcalled)
  have hend : ∀ a, (alone String).step served a = none := settled_iff.mpr ⟨rfl,rfl,rfl⟩
  obtain ⟨-,hpushed,hinvoked,-⟩ := h.2.2 serving served (Machine.Exec.of_replay hserved) hend
  exact ⟨h.1,hpushed,hinvoked⟩

end AsyncQueue
end BeastWebsocketEcho
