import BeastWebsocketEcho.AsyncQueueWakeup

/-!
# After a stop

`stop` is documented to make all subsequent pops fail. `maybe_complete` clears the
error with the first pop it aborts, so a later pop waits, or takes a value that was
pushed since. The queue does what the documentation says as long as no pop starts
after a stop unless the error is still set and is not about to be cleared.
-/

namespace BeastWebsocketEcho
namespace AsyncQueue

variable {V : Type}

/-- Pop `p` was initiated after the error of some stop task had been set. -/
def AfterStop (p : ℕ) (log : List (Event V)) : Prop :=
  ∃ earlier later, log = earlier ++ .stopped :: later ∧ p ∈ initiated later

/-- Every pop initiated after a stop is aborted by the time its wake-up has run, and none is
completed with a value. -/
def StaysStopped (s : State V) : Prop :=
  ∀ p, AfterStop p s.log →
    (s.running = none → .wake p ∉ s.tasks → .handed (some p) (some .operationAborted) none ∈ s.log) ∧
    ∀ v, .handed (some p) none v ∉ s.log

theorem AfterStop.of_snoc {p : ℕ} {log : List (Event V)} {e : Event V} (h : AfterStop p (log ++ [e])) :
    AfterStop p log ∨ (e = .initiated p ∧ .stopped ∈ log) := by
  obtain ⟨earlier,later,hlog,hp⟩ := h
  rcases Chronicle.split_snoc hlog with ⟨-,-,rfl⟩ | ⟨init,rfl,rfl⟩
  · simp at hp
  · rw [initiated_append,List.mem_append] at hp
    rcases hp with hp | hp
    · exact Or.inl ⟨earlier,init,rfl,hp⟩
    · cases e with
      | initiated q => exact Or.inr ⟨by simpa [eq_comm] using hp,by simp⟩
      | _ => simp at hp

theorem AfterStop.mem_initiated {p : ℕ} {log : List (Event V)} (h : AfterStop p log) : p ∈ initiated log := by
  obtain ⟨earlier,later,rfl,hp⟩ := h
  simp [hp]

def Event.isStopped : Event V → Bool
  | .stopped => true
  | _ => false

/-- A pop starts only before any stop, or while the error is set and no running `maybe_complete`
is about to clear it. -/
def errorKept (s : State V) : Action V → Bool
  | .asyncPop _ _ => !s.log.any Event.isStopped || (s.queue.ec.isSome && s.pc != some .clearingEc)
  | _ => true

/-- The pop that is outstanding, when it was initiated after a stop. -/
def Outstanding (s : State V) (p : ℕ) : Prop :=
  AfterStop p s.log ∧ s.pops = p+1 ∧ (s.queue.state = .waiting ∨ s.pc = some .posting)

/-- The wake-up of pop `p` has not yet come to its exchange. -/
def WakeDue (s : State V) (p : ℕ) : Prop :=
  .wake p ∈ s.tasks ∨ ∃ pc n, s.running = some ⟨.wake p,pc,n⟩ ∧ pc.mayServe = true

structure Aborting (s : State V) : Prop where
  ec : ∀ e, s.queue.ec = some e → e = .operationAborted
  kept : ∀ p, Outstanding s p → s.queue.ec.isSome = true ∧ s.pc ≠ some .clearingEc
  due : ∀ p, Outstanding s p → s.queue.state = .waiting → WakeDue s p
  aborted : ∀ p, AfterStop p s.log → ∀ ec v, .handed (some p) ec v ∈ s.log →
    ec = some .operationAborted ∧ v = none

theorem Outstanding.of_step {s t : State V} {p : ℕ} (h : Outstanding t p)
    (hlog : AfterStop p t.log → AfterStop p s.log) (hpops : t.pops = s.pops)
    (hopen : t.queue.state = .waiting ∨ t.pc = some .posting →
      s.queue.state = .waiting ∨ s.pc = some .posting) : Outstanding s p :=
  ⟨hlog h.1,hpops ▸ h.2.1,hopen h.2.2⟩

theorem afterStop_of_emit {s t : State V} {e : Event V} (hlog : t.log = s.log ++ [e])
    (he : e.initiated? = none) {p : ℕ} (h : AfterStop p t.log) : AfterStop p s.log := by
  rw [hlog] at h
  rcases h.of_snoc with h | ⟨rfl,-⟩
  · exact h
  · simp at he

theorem WakeDue.of_late {s t : State V} {p : ℕ} (h : WakeDue s p) {r : Running V}
    (hr : s.running = some r) (hlate : ∀ p, r.task = .wake p → r.pc.mayServe = false)
    (htasks : t.tasks = s.tasks) : WakeDue t p := by
  rcases h with hmem | ⟨pc,n,hrun,hserve⟩
  · exact Or.inl (by rw [htasks]; exact hmem)
  · rw [hr,Option.some.injEq] at hrun
    have hfalse := hlate p (by rw [hrun])
    rw [hrun,hserve] at hfalse
    exact absurd hfalse (by decide)

theorem WakeDue.of_next {s t : State V} {p : ℕ} (h : WakeDue s p) {task : Task V} {pc qc : Pc} {n : Bool}
    (hr : s.running = some ⟨task,pc,n⟩) (ht : t.running = some ⟨task,qc,n⟩) (hserve : qc.mayServe = true)
    (htasks : t.tasks = s.tasks) : WakeDue t p := by
  rcases h with hmem | ⟨pc',n',hrun,-⟩
  · exact Or.inl (by rw [htasks]; exact hmem)
  · rw [hr,Option.some.injEq,Running.mk.injEq] at hrun
    exact Or.inr ⟨qc,n,by rw [ht,hrun.1],hserve⟩

/-- What a step logs, if anything, is neither the start of a pop nor a hand-over. -/
inductive Silent (s t : State V) : Prop
  | same (hlog : t.log = s.log)
  | emit (e : Event V) (hlog : t.log = s.log ++ [e]) (hinit : e.initiated? = none) (hhand : e.handed? = none)

theorem Silent.afterStop {s t : State V} (h : Silent s t) {p : ℕ} (hp : AfterStop p t.log) : AfterStop p s.log := by
  cases h with
  | same hlog => rwa [hlog] at hp
  | emit e hlog hinit => exact afterStop_of_emit hlog hinit hp

theorem Silent.handed {s t : State V} (h : Silent s t) {x : Option ℕ} {ec : ErrorCode} {v : Option V}
    (hmem : .handed x ec v ∈ t.log) : .handed x ec v ∈ s.log := by
  cases h with
  | same hlog => rwa [hlog] at hmem
  | emit e hlog hinit hhand =>
    rw [hlog,List.mem_append,List.mem_singleton] at hmem
    rcases hmem with hmem | rfl
    · exact hmem
    · simp at hhand

theorem Aborting.quiet {s t : State V} (h : Aborting s) (hlog : Silent s t) (hpops : t.pops = s.pops)
    (hec : t.queue.ec = s.queue.ec ∨ t.queue.ec = some .operationAborted)
    (hopen : t.queue.state = .waiting ∨ t.pc = some .posting →
      s.queue.state = .waiting ∨ s.pc = some .posting)
    (hpc : t.pc = some .clearingEc → s.pc = some .clearingEc)
    (hdue : ∀ p, Outstanding s p → t.queue.state = .waiting → s.queue.state = .waiting ∧
      (WakeDue s p → WakeDue t p)) : Aborting t where
  ec e he := by
    rcases hec with hec | hec
    · exact h.ec e (hec ▸ he)
    · rw [hec] at he
      exact (Option.some.inj he).symm
  kept p hp := by
    obtain ⟨hsome,hno⟩ := h.kept p (hp.of_step hlog.afterStop hpops hopen)
    refine ⟨?_,fun hclear => hno (hpc hclear)⟩
    rcases hec with hec | hec
    · rw [hec]; exact hsome
    · rw [hec]; rfl
  due p hp hw := by
    have hs := hp.of_step hlog.afterStop hpops hopen
    obtain ⟨hwait,hnext⟩ := hdue p hs hw
    exact hnext (h.due p hs hwait)
  aborted p hp ec v hv := h.aborted p (hlog.afterStop hp) ec v (hlog.handed hv)

theorem Aborting.pop {s t : State V} (h : Aborting s) (horder : Orderly s) (hphase : Phase s)
    (hkept : .stopped ∈ s.log → s.queue.ec.isSome = true ∧ s.pc ≠ some .clearingEc)
    (hlog : t.log = s.log ++ [Event.initiated s.pops]) (hpops : t.pops = s.pops+1)
    (hec : t.queue.ec = s.queue.ec) (hpc : t.pc = some .clearingEc → s.pc = some .clearingEc)
    (hdue : WakeDue t s.pops) : Aborting t := by
  have hfresh : ¬ AfterStop s.pops s.log := by
    intro hafter
    have hin := hafter.mem_initiated
    rw [horder.initiated,List.mem_range] at hin
    exact lt_irrefl _ hin
  have hsplit : ∀ p, AfterStop p t.log → AfterStop p s.log ∨ (p = s.pops ∧ .stopped ∈ s.log) := by
    intro p hp
    rw [hlog] at hp
    rcases hp.of_snoc with hp | ⟨he,hstop⟩
    · exact Or.inl hp
    · exact Or.inr ⟨by simpa [eq_comm] using he,hstop⟩
  refine ⟨fun e he => h.ec e (hec ▸ he),?_,?_,?_⟩
  · rintro p ⟨hafter,hp,-⟩
    obtain rfl : p = s.pops := by omega
    obtain ⟨hsome,hno⟩ := hkept ((hsplit _ hafter).resolve_left hfresh).2
    exact ⟨by rw [hec]; exact hsome,fun hclear => hno (hpc hclear)⟩
  · rintro p ⟨-,hp,-⟩ -
    obtain rfl : p = s.pops := by omega
    exact hdue
  · intro p hp ec v hv
    have hv' : .handed (some p) ec v ∈ s.log := by
      rw [hlog] at hv
      simpa using hv
    rcases hsplit p hp with hp | ⟨rfl,-⟩
    · exact h.aborted p hp ec v hv'
    · -- The new pop has not been handed anything yet.
      obtain ⟨n,hn,hhanded⟩ := hphase.handed_eq
      have hmem : some s.pops ∈ handed s.log := List.mem_filterMap.mpr ⟨_,hv',rfl⟩
      rw [hhanded,firstHandlers] at hmem
      simp only [List.mem_map,List.mem_range,Option.some.injEq,exists_eq_right] at hmem
      omega

theorem Aborting.hand {s t : State V} (h : Aborting s) (hphase : Phase s) (hpc : s.pc = some .posting)
    {ec : ErrorCode} {x : Option V} (hlog : t.log = s.log ++ [Event.handed s.queue.handler ec x])
    (hstate : t.queue.state = s.queue.state) (hpc' : t.pc ≠ some .posting) (hec' : t.queue.ec = s.queue.ec)
    (hx : ∀ q, Outstanding s q → ec = some .operationAborted ∧ x = none) : Aborting t := by
  have hnot := hphase.not_waiting_of_posting hpc
  have hclosed : ∀ p, ¬ Outstanding t p := by
    rintro p ⟨-,-,hw | hw⟩
    · simp [hstate,hnot] at hw
    · exact hpc' hw
  refine ⟨fun e he => h.ec e (hec' ▸ he),fun p hp => absurd hp (hclosed p),
    fun p hp => absurd hp (hclosed p),?_⟩
  intro p hp ec' v hv
  have hp' := afterStop_of_emit hlog rfl hp
  rw [hlog,List.mem_append] at hv
  rcases hv with hv | hv
  · exact h.aborted p hp' ec' v hv
  · obtain ⟨hq,rfl,rfl⟩ : some p = s.queue.handler ∧ ec' = ec ∧ v = x := by simpa using hv
    cases hphase with
    | idle _ _ _ _ h₅ => exact absurd hpc h₅
    | waiting q _ _ _ _ _ h₆ => exact absurd hpc h₆
    | posted q c _ _ _ _ _ _ h₇ => exact absurd hpc h₇
    | serving q h₁ _ _ h₄ =>
      obtain rfl : p = q := by simpa [h₄] using hq
      exact hx p ⟨hp',h₁,Or.inr hpc⟩

theorem aborting_step {s t : State V} (hphase : Phase s) (horder : Orderly s) (h : Aborting s)
    (hkept : t.pops ≠ s.pops → .stopped ∈ s.log →
      s.queue.ec.isSome = true ∧ s.pc ≠ some .clearingEc) (hstep : Step s t) : Aborting t := by
  cases hstep with
  | call task =>
    refine h.quiet (Silent.same rfl) rfl (Or.inl rfl) id id fun p _ hw => ⟨hw,?_⟩
    rintro (hmem | hrun)
    · exact Or.inl (List.mem_append_left _ hmem)
    · exact Or.inr hrun
  | callInline task _ hr =>
    refine h.quiet (Silent.same rfl) rfl (Or.inl rfl) (by simp [State.pc,hr]) (by simp [State.pc]) fun p _ hw => ⟨hw,?_⟩
    rintro (hmem | ⟨pc,n,hrun,-⟩)
    · exact Or.inl hmem
    · simp [hr] at hrun
  | pop associated ha =>
    have hidle := (hphase.idle_of_awaiting ha).1
    refine h.pop horder hphase (hkept (by simp)) (s.initiate_log associated hidle) rfl rfl ?_ (Or.inl (by simp))
    simp [State.pc]
  | popInline associated ha hr =>
    have hidle := (hphase.idle_of_awaiting ha).1
    exact h.pop horder hphase (hkept (by simp)) (s.initiate_log associated hidle) rfl rfl (by simp [State.pc])
      (Or.inr ⟨.body,true,rfl,rfl⟩)
  | begin i task hr ht =>
    refine h.quiet (Silent.same rfl) rfl (Or.inl rfl) (by simp [State.pc,hr]) (by simp [State.pc]) fun p _ hw => ⟨hw,?_⟩
    rintro (hmem | ⟨pc,n,hrun,-⟩)
    · rcases mem_eraseIdx_or_eq hmem ht with rfl | hrest
      · exact Or.inr ⟨.body,false,rfl,rfl⟩
      · exact Or.inl hrest
    · simp [hr] at hrun
  | wakeBody p n hr =>
    exact h.quiet (Silent.same rfl) rfl (Or.inl rfl) (by simp [State.pc,hr]) (by simp [State.pc])
      fun p _ hw => ⟨hw,fun hd => hd.of_next hr rfl rfl rfl⟩
  | pushBody v n hr =>
    exact h.quiet (Silent.emit (.pushed v) rfl rfl rfl) rfl (Or.inl rfl) (by simp [State.pc,hr]) (by simp [State.pc])
      fun p _ hw => ⟨hw,fun hd => hd.of_next hr rfl rfl rfl⟩
  | stopBody n hr =>
    exact h.quiet (Silent.emit .stopped rfl rfl rfl) rfl (Or.inr rfl) (by simp [State.pc,hr]) (by simp [State.pc])
      fun p _ hw => ⟨hw,fun hd => hd.of_next hr rfl rfl rfl⟩
  | cleared task n hr =>
    exact h.quiet (Silent.same rfl) rfl (Or.inl rfl) (by simp [State.pc,hr]) (by simp [State.pc])
      fun p _ hw => ⟨hw,fun hd => hd.of_next hr rfl rfl rfl⟩
  | clear task n v vs hr =>
    exact h.quiet (Silent.emit (.discarded v) rfl rfl rfl) rfl (Or.inl rfl) id id fun p _ hw =>
      ⟨hw,fun hd => hd.of_next hr hr rfl rfl⟩
  | nothing task n hr he =>
    refine h.quiet (Silent.same rfl) rfl (Or.inl rfl) (by simp [State.pc,hr]) (by simp [State.pc]) fun p hp => ?_
    -- The error of an outstanding pop is set, so the test does not fail.
    obtain ⟨hsome,-⟩ := h.kept p hp
    cases hec : s.queue.ec with
    | none => simp [hec] at hsome
    | some e => simp [Impl.empty,hec] at he
  | something task n hr =>
    exact h.quiet (Silent.same rfl) rfl (Or.inl rfl) (by simp [State.pc,hr]) (by simp [State.pc])
      fun p _ hw => ⟨hw,fun hd => hd.of_next hr rfl rfl rfl⟩
  | wasWaiting task n hr hw =>
    exact h.quiet (Silent.same rfl) rfl (Or.inl rfl) (fun _ => Or.inl hw) (by simp [State.pc])
      fun p _ hno => absurd hno (by simp [Impl.exchange])
  | wasNotWaiting task n hr hw =>
    exact h.quiet (Silent.same rfl) rfl (Or.inl rfl) (by simp [State.pc,Impl.exchange]) (by simp [State.pc])
      fun p _ hno => absurd hno (by simp [Impl.exchange])
  | postError task n e hr he =>
    exact h.hand hphase (by simp [State.pc,hr]) rfl rfl (by simp [State.pc]) rfl
      fun q _ => ⟨by rw [h.ec e he],rfl⟩
  | postValue task n hr he =>
    refine h.hand hphase (by simp [State.pc,hr]) rfl rfl (by simp [State.pc]) rfl fun q hq => ?_
    have hsome := (h.kept q hq).1
    simp [he] at hsome
  | clearEc task n hr =>
    have hclosed : ∀ p, ¬ Outstanding s p := fun p hp => (h.kept p hp).2 (by simp [State.pc,hr])
    refine ⟨by simp,fun p hp => absurd ?_ (hclosed p),fun p hp => absurd ?_ (hclosed p),h.aborted⟩
    all_goals exact hp.of_step id rfl (by simp [State.pc,hr])
  | popFront task n hr =>
    refine h.quiet (Silent.same rfl) rfl (Or.inl rfl) (by simp [State.pc,hr]) (by simp [State.pc])
      fun p _ hw => ⟨hw,fun hd => hd.of_late hr (fun _ _ => rfl) rfl⟩
  | invoke i c =>
    refine h.quiet (Silent.emit (.invoked c.handler false) rfl rfl rfl) rfl (Or.inl rfl) id id fun p _ hw => ⟨hw,?_⟩
    rintro (hmem | hrun)
    · exact Or.inl hmem
    · exact Or.inr hrun

theorem pops_of_dispatch {s t : State V} {task : Task V} {onExecutor : Bool}
    (h : s.dispatch task onExecutor = some t) : t.pops = s.pops := by
  rcases dispatch_cases h with rfl | ⟨-,rfl⟩ <;> rfl

theorem pops_of_advance (s : State V) (r : Running V) : (s.advance r).pops = s.pops := by
  obtain ⟨task,pc,n⟩ := r
  cases pc with
  | body => cases task <;> rfl
  | clearing =>
    simp only [State.advance]
    split <;> rfl
  | testing =>
    simp only [State.advance]
    split <;> rfl
  | exchanging =>
    simp only [State.advance]
    split <;> rfl
  | posting => rfl
  | clearingEc => rfl
  | popping => rfl

/-- Only the consumer's call starts a pop, so a step that starts one met the condition. -/
theorem kept_of_restrict {s t : State V} {a : Action V}
    (h : ((machine V).restrict errorKept).step s a = some t) (hpops : t.pops ≠ s.pops)
    (hstop : .stopped ∈ s.log) : s.queue.ec.isSome = true ∧ s.pc ≠ some .clearingEc := by
  obtain ⟨hok,h⟩ := Machine.restrict_step_iff.mp h
  cases a with
  | push v onExecutor => exact absurd (pops_of_dispatch h) hpops
  | stop onExecutor => exact absurd (pops_of_dispatch h) hpops
  | asyncPop associated onExecutor =>
    have hany : s.log.any Event.isStopped = true := List.any_eq_true.mpr ⟨_,hstop,rfl⟩
    simpa [errorKept,hany] using hok
  | begin i =>
    obtain ⟨-,task,-,rfl⟩ := begin_cases h
    exact absurd rfl hpops
  | advance =>
    obtain ⟨r,-,rfl⟩ := Option.map_eq_some_iff.mp h
    exact absurd (pops_of_advance s r) hpops
  | invoke i =>
    obtain ⟨c,-,rfl⟩ := Option.map_eq_some_iff.mp h
    exact absurd rfl hpops

theorem reachable_aborting {s : State V} (h : ((machine V).restrict errorKept).Reachable s) : Aborting s := by
  refine h.invariant_reachable ?_ ?_
  · rintro s ⟨exec,rfl⟩
    refine ⟨by simp [State.init,Impl.construct],?_,?_,by simp [State.init]⟩
    · rintro p ⟨-,hp,-⟩
      simp [State.init] at hp
    · rintro p ⟨-,hp,-⟩
      simp [State.init] at hp
  · intro s a t hr hi ha
    have hreach := hr.of_restrict
    exact aborting_step (reachable_phase hreach) (reachable_orderly hreach) hi (kept_of_restrict ha)
      (step_cases (Machine.restrict_step_iff.mp ha).2)

/-- In every run whose pops meet the condition, the stopped queue stays stopped. -/
theorem stays_stopped {s : State V} (h : ((machine V).restrict errorKept).Reachable s) : StaysStopped s := by
  have hab := reachable_aborting h
  have hphase := reachable_phase h.of_restrict
  have horder := reachable_orderly h.of_restrict
  intro p hafter
  refine ⟨fun hrun hwake => ?_,fun v hv => ?_⟩
  · have hlt : p < s.pops := by simpa [horder.initiated] using hafter.mem_initiated
    have hmem : some p ∈ handed s.log := by
      cases hphase with
      | idle _ _ _ _ _ h₆ => simpa [h₆,firstHandlers] using hlt
      | posted q c h₁ _ _ _ _ _ _ h₈ => simpa [h₈,firstHandlers,← h₁] using hlt
      | serving q _ _ _ _ _ h₆ => simp [State.pc,hrun] at h₆
      | waiting q h₁ _ h₃ _ _ _ h₇ =>
        rcases Nat.lt_or_ge p q with hpq | hpq
        · simpa [h₇,firstHandlers] using hpq
        · -- The last pop still waits, but its wake-up has run.
          obtain rfl : p = q := by omega
          rcases hab.due p ⟨hafter,h₁,Or.inl h₃⟩ h₃ with hdue | ⟨pc,n,hdue,-⟩
          · exact absurd hdue hwake
          · simp [hrun] at hdue
    obtain ⟨e,he,hx⟩ := List.mem_filterMap.mp hmem
    cases e with
    | handed x ec v =>
      obtain rfl : x = some p := by simpa using hx
      obtain ⟨rfl,rfl⟩ := hab.aborted p hafter ec v he
      exact he
    | _ => simp at hx
  · have hnone := (hab.aborted p hafter none v hv).1
    simp at hnone

def stopThenPop : List (Action String) :=
  [.stop false,.begin 0,.advance,.advance,.advance,.advance,
    .asyncPop (some 1) false,.begin 0,.advance,.advance,.advance,.advance,.advance]

theorem stays_stopped_stopThenPop :
    ∃ s, ((machine String).restrict errorKept).replay (State.init 0) stopThenPop = some s ∧
      .handed (some 0) (some .operationAborted) none ∈ s.log ∧ ∀ v, .handed (some 0) none v ∉ s.log := by
  refine ⟨_,rfl,?_⟩
  have hrun : ((machine String).restrict errorKept).replay (State.init 0) stopThenPop = some _ := rfl
  have h := stays_stopped (Machine.Reachable.of_replay ⟨0,rfl⟩ hrun) 0 ⟨[],_,rfl,by decide⟩
  exact ⟨h.1 rfl (by decide),h.2⟩

def stopThenTwoPops : List (Action String) :=
  stopThenPop ++ [.invoke 0,.asyncPop (some 1) false,.begin 0,.advance,.advance]

theorem second_pop_after_stop_waits : ¬ ∀ s, (machine String).Reachable s → StaysStopped s := by
  intro h
  obtain ⟨s,hs,hafter,hrun,hwake,hlog⟩ :
      ∃ s, (machine String).replay (State.init 0) stopThenTwoPops = some s ∧ AfterStop 1 s.log ∧
        s.running = none ∧ .wake 1 ∉ s.tasks ∧ .handed (some 1) (some .operationAborted) none ∉ s.log :=
    ⟨_,rfl,⟨[],_,rfl,by decide⟩,rfl,by decide,by decide⟩
  exact hlog ((h s (Machine.Reachable.of_replay ⟨0,rfl⟩ hs) 1 hafter).1 hrun hwake)

end AsyncQueue
end BeastWebsocketEcho
