import BeastWebsocketEcho.AsyncQueueHandles
import BeastWebsocketEcho.AsyncQueueStop

/-!
# One handle for an implementation, and one stop when it is given up

A stop task that has not come to its exchange is due as long as the queue waits, and it finds
the error that it has set. So a queue that nobody holds any more completes the pop that was
outstanding when its last handle gave it up.
-/

namespace BeastWebsocketEcho
namespace AsyncQueue

variable {V : Type}

@[simp] def Event.invoked? : Event V → Option (Option ℕ)
  | .invoked h _ => some h
  | _ => none

def invoked (log : List (Event V)) : List (Option ℕ) := log.filterMap Event.invoked?

@[simp] theorem invoked_append (l k : List (Event V)) : invoked (l ++ k) = invoked l ++ invoked k :=
  List.filterMap_append

@[simp] theorem invoked_nil : invoked ([] : List (Event V)) = [] := rfl

@[simp] theorem invoked_cons (e : Event V) (l : List (Event V)) :
    invoked (e :: l) = e.invoked?.toList ++ invoked l := filterMap_cons_toList _ _ _

/-- What was posted is invoked in the same order. -/
def Delivers (s : State V) : Prop := invoked s.log ++ s.posted.map Completion.handler = handed s.log

theorem Delivers.silent {s t : State V} (h : Delivers s) (hposted : t.posted = s.posted)
    (hinvoked : invoked t.log = invoked s.log) (hhanded : handed t.log = handed s.log) : Delivers t := by
  rw [Delivers,hposted,hinvoked,hhanded]
  exact h

theorem delivers_step {s t : State V} (hphase : Phase s) (h : Delivers s) (hstep : Step s t) : Delivers t := by
  cases hstep with
  | pop associated ha =>
    have hidle := (hphase.idle_of_awaiting ha).1
    exact h.silent (s.initiate_posted associated) (by simp [s.initiate_log associated hidle])
      (by simp [s.initiate_log associated hidle])
  | popInline associated ha =>
    have hidle := (hphase.idle_of_awaiting ha).1
    exact h.silent (s.initiate_posted associated) (by simp [s.initiate_log associated hidle])
      (by simp [s.initiate_log associated hidle])
  | postError =>
    rw [Delivers] at h ⊢
    simp [← h,Impl.completion]
  | postValue =>
    rw [Delivers] at h ⊢
    simp [← h,Impl.completion]
  | invoke i c hc =>
    -- Only the handler of the last pop can be posted.
    cases hphase with
    | posted p d _ _ _ _ hposted =>
      rw [hposted] at hc
      obtain ⟨hi,rfl⟩ := List.getElem?_eq_some_iff.mp hc
      obtain rfl : i = 0 := by simpa using hi
      simpa [Delivers,hposted] using h
    | idle _ _ _ hposted => simp [hposted] at hc
    | waiting p _ _ _ _ hposted => simp [hposted] at hc
    | serving p _ _ _ _ hposted => simp [hposted] at hc
  | pushBody => exact h.silent rfl (by simp) (by simp)
  | stopBody => exact h.silent rfl (by simp) (by simp)
  | clear => exact h.silent rfl (by simp) (by simp)
  | _ => exact h.silent rfl rfl rfl

theorem reachable_delivers {s : State V} (h : (machine V).Reachable s) : Delivers s := by
  refine h.invariant_reachable ?_ ?_
  · rintro s ⟨exec,rfl⟩
    rfl
  · intro s a t hr hi ha
    exact delivers_step (reachable_phase hr) hi (step_cases ha)

/-- A stop task has not come to its exchange; once its body ran, the error is set. -/
def StopDue (s : State V) : Prop :=
  .stop ∈ s.tasks ∨
    ∃ pc n, s.running = some ⟨.stop,pc,n⟩ ∧ pc.mayServe = true ∧ (pc ≠ .body → s.queue.ec.isSome = true)

def Halting (s : State V) : Prop := s.queue.state = .waiting → StopDue s

/-- A task that is not the stop, or one that is past its exchange, is not what is due. -/
theorem StopDue.of_other {s : State V} (h : StopDue s)
    (hr : ∀ pc n, s.running = some ⟨.stop,pc,n⟩ → pc.mayServe = false) : .stop ∈ s.tasks := by
  rcases h with htasks | ⟨pc,n,hrun,hserve,-⟩
  · exact htasks
  · rw [hr pc n hrun] at hserve
    exact absurd hserve (by decide)

/-- The stop goes on to a later step before its exchange. -/
theorem StopDue.of_next {s t : State V} (h : StopDue s) {task : Task V} {pc qc : Pc} {n : Bool}
    (hr : s.running = some ⟨task,pc,n⟩) (hbody : pc ≠ .body) (ht : t.running = some ⟨task,qc,n⟩)
    (hserve : qc.mayServe = true) (htasks : t.tasks = s.tasks) (hec : t.queue.ec = s.queue.ec) : StopDue t := by
  rcases h with hmem | ⟨pc',n',hrun,-,herror⟩
  · exact Or.inl (by rw [htasks]; exact hmem)
  · rw [hr,Option.some.injEq,Running.mk.injEq] at hrun
    obtain ⟨rfl,rfl,rfl⟩ := hrun
    exact Or.inr ⟨qc,n,ht,hserve,fun _ => hec ▸ herror hbody⟩

theorem halting_step {s t : State V} (h : Halting s) (hstep : Step s t) (hpops : t.pops = s.pops) : Halting t := by
  intro hw
  cases hstep with
  | pop associated => simp at hpops
  | popInline associated => simp at hpops
  | call task =>
    rcases h hw with htasks | hrunning
    · exact Or.inl (List.mem_append_left _ htasks)
    · exact Or.inr hrunning
  | callInline task _ hr => exact Or.inl ((h hw).of_other (by simp [hr]))
  | begin i task hr ht =>
    have hmem := (h hw).of_other (by simp [hr])
    rcases mem_eraseIdx_or_eq hmem ht with rfl | htasks
    · exact Or.inr ⟨.body,false,rfl,rfl,fun hne => absurd rfl hne⟩
    · exact Or.inl htasks
  | wakeBody p n hr => exact Or.inl ((h hw).of_other (by simp [hr]))
  | pushBody v n hr => exact Or.inl ((h hw).of_other (by simp [hr]))
  | stopBody n hr => exact Or.inr ⟨.clearing,n,rfl,rfl,fun _ => rfl⟩
  | cleared task n hr => exact (h hw).of_next hr (by decide) rfl rfl rfl rfl
  | clear task n v vs hr => exact (h hw).of_next hr (by decide) hr rfl rfl rfl
  | something task n hr => exact (h hw).of_next hr (by decide) rfl rfl rfl rfl
  | nothing task n hr he =>
    refine Or.inl ?_
    rcases h hw with htasks | ⟨pc,m,hrun,-,herror⟩
    · exact htasks
    · -- The stop that tests has set the error.
      rw [hr,Option.some.injEq,Running.mk.injEq] at hrun
      obtain ⟨-,rfl,-⟩ := hrun
      have hset := herror (by decide)
      cases hec : s.queue.ec with
      | none => simp [hec] at hset
      | some e => simp [Impl.empty,hec] at he
  | wasWaiting => exact absurd hw (by simp [Impl.exchange])
  | wasNotWaiting => exact absurd hw (by simp [Impl.exchange])
  | postError task n e hr => exact Or.inl ((h hw).of_other (by simp [hr,Pc.mayServe]))
  | postValue task n hr => exact Or.inl ((h hw).of_other (by simp [hr,Pc.mayServe]))
  | clearEc task n hr => exact Or.inl ((h hw).of_other (by simp [hr,Pc.mayServe]))
  | popFront task n hr => exact Or.inl ((h hw).of_other (by simp [hr,Pc.mayServe]))
  | invoke => exact h hw

theorem halting_stop {s t : State V} {onExecutor : Bool} (h : (machine V).step s (.stop onExecutor) = some t) :
    Halting t := by
  intro _
  rcases dispatch_cases h with rfl | ⟨-,rfl⟩
  · exact Or.inl (by simp)
  · exact Or.inr ⟨.body,true,rfl,rfl,fun hne => absurd rfl hne⟩

theorem pops_of_not_call {s t : State V} {a : Action V} (hcall : a.isCall = false)
    (h : (machine V).step s a = some t) : t.pops = s.pops := by
  cases a with
  | push | stop | asyncPop => simp [Action.isCall] at hcall
  | begin i =>
    obtain ⟨-,task,-,rfl⟩ := begin_cases h
    rfl
  | advance =>
    obtain ⟨r,-,rfl⟩ := Option.map_eq_some_iff.mp h
    exact pops_of_advance s r
  | invoke i =>
    obtain ⟨c,-,rfl⟩ := Option.map_eq_some_iff.mp h
    rfl

theorem Halting.completes {s : State V} (h : Halting s) (hs : (machine V).Reachable s) (hr : s.running = none)
    (htasks : s.tasks = []) :
    invoked s.log ++ s.posted.map Completion.handler = (initiated s.log).map some ∧ (initiated s.log).Nodup := by
  have hnotWaiting : s.queue.state ≠ .waiting := by
    intro hw
    have hmem := (h hw).of_other (by simp [hr])
    simp [htasks] at hmem
  have horder := (reachable_orderly hs).initiated
  have hcount := ((reachable_phase hs).between_tasks hr).1
  have hhanded : handed s.log = firstHandlers s.pops := by
    obtain ⟨n,-,hn⟩ := (reachable_phase hs).handed_eq
    have hlength : (handed s.log).length = n := by simp [hn,firstHandlers]
    rcases (reachable_phase hs).handed_count with hall | hone
    · rw [hn,← hall,hlength]
    · exact absurd (hcount.mp hone) hnotWaiting
  rw [reachable_delivers hs,hhanded,horder]
  exact ⟨rfl,List.nodup_range⟩

namespace Queues

/-- Every implementation is held by one handle, or was given up and stopped. -/
structure Kept (s : State V) : Prop where
  owned : (s.handles.held ++ s.stops).Perm (List.range s.impls.length)
  reach : ∀ (k : ℕ) (q : AsyncQueue.State V), s.impls[k]? = some q → (AsyncQueue.machine V).Reachable q
  halting : ∀ k ∈ s.stops, ∀ q : AsyncQueue.State V, s.impls[k]? = some q → Halting q

variable {s t : State V} {i j k : ℕ}

theorem Kept.nodup (h : Kept s) : (s.handles.held ++ s.stops).Nodup := h.owned.nodup_iff.mpr List.nodup_range

theorem Kept.not_stopped (h : Kept s) (hk : k ∈ s.handles.held) : k ∉ s.stops :=
  fun hstops => (List.nodup_append.mp h.nodup).2.2 k hk k hstops rfl

theorem Kept.lt_of_stopped (h : Kept s) (hk : k ∈ s.stops) : k < s.impls.length :=
  List.mem_range.mp (h.owned.mem_iff.mp (List.mem_append_right _ hk))

theorem Kept.set (h : Kept s) {q r : AsyncQueue.State V} {a : AsyncQueue.Action V} (hq : s.impls[k]? = some q)
    (hstep : (AsyncQueue.machine V).step q a = some r) (hhalt : k ∈ s.stops → Halting q → Halting r) :
    Kept { s with impls := s.impls.set k r } where
  owned := by simpa using h.owned
  reach j p hp := by
    rcases get_set_cases hp with ⟨-,rfl⟩ | ⟨-,hp⟩
    · exact (h.reach k q hq).step hstep
    · exact h.reach j p hp
  halting j hj p hp := by
    rcases get_set_cases hp with ⟨rfl,rfl⟩ | ⟨-,hp⟩
    · exact hhalt hj (h.halting j hj q hq)
    · exact h.halting j hj p hp

theorem Kept.gave (h : Kept s) {hs : Handles ℕ} {r : Option ℕ} (hheld : s.handles.held.Perm (hs.held ++ r.toList))
    (hstops : Stops s hs r t) : Kept t := by
  cases hstops with
  | none =>
    have hsame : hs.held.Perm s.handles.held := by simpa using hheld.symm
    exact ⟨(hsame.append_right _).trans h.owned,h.reach,h.halting⟩
  | some k onExecutor q r hq hstep =>
    have hk : k ∈ s.handles.held := hheld.mem_iff.mpr (by simp)
    have hset := h.set hq hstep fun hstopped => absurd hstopped (h.not_stopped hk)
    refine ⟨?_,hset.reach,?_⟩
    · have hmoved : (hs.held ++ (s.stops ++ [k])).Perm (s.handles.held ++ s.stops) := by
        rw [← List.append_assoc]
        refine List.perm_append_comm.trans ?_
        rw [← List.append_assoc]
        exact (List.perm_append_comm.trans hheld.symm).append_right _
      simpa using hmoved.trans h.owned
    · intro j hj p hp
      rcases List.mem_append.mp hj with hj | hj
      · exact hset.halting j hj p hp
      · obtain rfl := List.mem_singleton.mp hj
        rcases get_set_cases hp with ⟨-,rfl⟩ | ⟨hne,-⟩
        · exact halting_stop hstep
        · exact absurd rfl hne

theorem kept_step (h : Kept s) {a : Action V} (hstep : step s a = some t) : Kept t := by
  cases step_cases hstep with
  | construct exec =>
    refine ⟨?_,?_,?_⟩
    · have hnew : ((s.handles.held ++ s.stops) ++ [s.impls.length]).Perm (List.range (s.impls.length+1)) := by
        rw [List.range_succ]
        exact h.owned.append_right _
      have hmoved : (s.handles.held ++ [s.impls.length] ++ s.stops).Perm
          (s.handles.held ++ s.stops ++ [s.impls.length]) := by
        rw [List.append_assoc,List.append_assoc]
        exact List.perm_append_comm.append_left _
      simpa [State.construct] using hmoved.trans hnew
    · intro k q hq
      rcases Nat.lt_trichotomy k s.impls.length with hlt | rfl | hgt
      · rw [State.construct,List.getElem?_append_left hlt] at hq
        exact h.reach k q hq
      · obtain rfl : AsyncQueue.State.init exec = q := by simpa [State.construct] using hq
        exact Machine.Reachable.init ⟨exec,rfl⟩
      · rw [State.construct,List.getElem?_eq_none (by simp; omega)] at hq
        simp at hq
    · intro k hk q hq
      rw [State.construct,List.getElem?_append_left (h.lt_of_stopped hk)] at hq
      exact h.halting k hk q hq
  | moved other hs hheld => exact ⟨(hheld.append_right _).trans h.owned,h.reach,h.halting⟩
  | gave a hs t hheld hstops => exact h.gave hheld hstops
  | call this k a q r hthis hq hqstep =>
    have hk : k ∈ s.handles.held := Handles.mem_held.mpr ⟨this,hthis⟩
    exact h.set hq hqstep fun hstopped => absurd hstopped (h.not_stopped hk)
  | run k a q r hcall hq hqstep =>
    have hpops := pops_of_not_call hcall hqstep
    exact h.set hq hqstep fun _ hhalt => halting_step hhalt (AsyncQueue.step_cases hqstep) hpops

theorem reachable_kept (h : (machine V).Reachable s) : Kept s := by
  refine h.invariant ?_ ?_
  · rintro s rfl
    exact ⟨by simp [State.init,Handles.held],by simp [State.init],by simp [State.init]⟩
  · intro s a t hi ha
    have hstep : step s a = some t := ha
    exact kept_step hi hstep

theorem stops_step {a : Action V} (hstep : step s a = some t) : t.stops = s.stops ++ (s.givenUp a).toList := by
  cases step_cases hstep with
  | gave a hs t hheld hstops =>
    generalize s.givenUp a = r at hstops
    cases hstops with
    | none => simp
    | some k onExecutor q r => rfl
  | _ => simp [State.givenUp,State.construct]

/-- Handles never share an implementation. Each one is stopped exactly when the last handle that held it is destroyed
or assigned over, and once its tasks have run all its pops have been completed. -/
theorem stopped_when_given_up (h : (machine V).Reachable s) :
    (∀ i j k, s.handles.resource i = some k → s.handles.resource j = some k → i = j) ∧
    s.stops.Nodup ∧
    (∀ k, k ∈ s.stops ↔ k < s.impls.length ∧ ∀ i, s.handles.resource i ≠ some k) ∧
    (∀ a t, (machine V).step s a = some t → t.stops = s.stops ++ (s.givenUp a).toList) ∧
    ∀ k ∈ s.stops, ∀ q : AsyncQueue.State V, s.impls[k]? = some q → q.running = none → q.tasks = [] →
      invoked q.log ++ q.posted.map Completion.handler = (initiated q.log).map some ∧ (initiated q.log).Nodup := by
  have hkept := reachable_kept h
  refine ⟨?_,?_,?_,?_,?_⟩
  · intro i j k hi hj
    exact Handles.unique_of_nodup (List.nodup_append.mp hkept.nodup).1 hi hj
  · exact (List.nodup_append.mp hkept.nodup).2.1
  · intro k
    constructor
    · intro hk
      refine ⟨hkept.lt_of_stopped hk,fun i hi => ?_⟩
      exact hkept.not_stopped (Handles.mem_held.mpr ⟨i,hi⟩) hk
    · rintro ⟨hlt,hnobody⟩
      have hmem : k ∈ s.handles.held ++ s.stops := hkept.owned.mem_iff.mpr (List.mem_range.mpr hlt)
      rcases List.mem_append.mp hmem with hheld | hstopped
      · obtain ⟨i,hi⟩ := Handles.mem_held.mp hheld
        exact absurd hi (hnobody i)
      · exact hstopped
  · intro a t hstep
    exact stops_step hstep
  · intro k hk q hq hr htasks
    exact (hkept.halting k hk q hq).completes (hkept.reach k q hq) hr htasks

/-- Two queues, a pop on the first, and an assignment of the second over it. -/
def assignedOver : List (Action String) :=
  let tasks : List (AsyncQueue.Action String) :=
    [.begin 0,.advance,.advance,.begin 0,.advance,.advance,.advance,.advance,.advance,.advance,.invoke 0]
  [.construct 0,.construct 1,.call 0 (.asyncPop none false),.moveAssign 0 1 false] ++ tasks.map (Action.run 0)

theorem stopped_when_given_up_assignedOver :
    ∃ (s : State String) (q : AsyncQueue.State String),
      (machine String).replay State.init assignedOver = some s ∧ s.impls[0]? = some q ∧ s.stops = [0] ∧
      s.handles.resource 0 = some 1 ∧ q.posted = [] ∧ invoked q.log = [some 0] ∧ initiated q.log = [0] ∧
      invoked q.log ++ q.posted.map Completion.handler = (initiated q.log).map some := by
  have hrun : (machine String).replay State.init assignedOver = some _ := rfl
  have h := stopped_when_given_up (Machine.Reachable.of_replay rfl hrun)
  refine ⟨_,_,hrun,rfl,rfl,rfl,rfl,rfl,rfl,?_⟩
  exact (h.2.2.2.2 0 (by decide) _ rfl rfl rfl).1

end Queues
end AsyncQueue
end BeastWebsocketEcho
