import BeastWebsocketEcho.AsyncQueueSteps

/-!
# Exactly one completion for every pop, and no lost wake-up

The consumer's pop goes through four phases, and the fields of the queue tell which
one it is in: nothing asked, waiting, taken up by a running `maybe_complete`, and
posted. Every atomic step either keeps the phase or moves to the next one.
-/

namespace BeastWebsocketEcho
namespace AsyncQueue

variable {V : Type}

def firstHandlers (n : ℕ) : List (Option ℕ) := (List.range n).map some

@[simp] theorem firstHandlers_succ (n : ℕ) : firstHandlers (n+1) = firstHandlers n ++ [some n] := by
  simp [firstHandlers,List.range_succ]

theorem firstHandlers_nodup (n : ℕ) : (firstHandlers n).Nodup :=
  List.nodup_range.map (Option.some_injective ℕ)

inductive Phase (s : State V) : Prop
  | idle (hawait : s.awaiting = false) (hstate : s.queue.state = .notWaiting)
      (hhandler : s.queue.handler = none) (hposted : s.posted = []) (hpc : s.pc ≠ some .posting)
      (hhanded : handed s.log = firstHandlers s.pops)
  | waiting (p : ℕ) (hpops : s.pops = p+1) (hawait : s.awaiting = true)
      (hstate : s.queue.state = .waiting) (hhandler : s.queue.handler = some p)
      (hposted : s.posted = []) (hpc : s.pc ≠ some .posting) (hhanded : handed s.log = firstHandlers p)
  | serving (p : ℕ) (hpops : s.pops = p+1) (hawait : s.awaiting = true)
      (hstate : s.queue.state = .notWaiting) (hhandler : s.queue.handler = some p)
      (hposted : s.posted = []) (hpc : s.pc = some .posting) (hhanded : handed s.log = firstHandlers p)
  | posted (p : ℕ) (c : Completion V) (hpops : s.pops = p+1) (hawait : s.awaiting = true)
      (hstate : s.queue.state = .notWaiting) (hhandler : s.queue.handler = none)
      (hposted : s.posted = [c]) (hc : c.handler = some p) (hpc : s.pc ≠ some .posting)
      (hhanded : handed s.log = firstHandlers (p+1))

theorem Phase.frame {s t : State V} (h : Phase s) (hpc : t.pc = some .posting ↔ s.pc = some .posting)
    (hhanded : handed t.log = handed s.log)
    (hsame : (t.queue.state,t.awaiting,t.queue.handler,t.posted,t.pops) =
      (s.queue.state,s.awaiting,s.queue.handler,s.posted,s.pops)) : Phase t := by
  simp only [Prod.mk.injEq] at hsame
  obtain ⟨hstate,hawait,hhandler,hposted,hpops⟩ := hsame
  cases h with
  | idle h₁ h₂ h₃ h₄ h₅ h₆ =>
    exact Phase.idle (hawait.trans h₁) (hstate.trans h₂) (hhandler.trans h₃) (hposted.trans h₄)
      (mt hpc.mp h₅) (by rw [hhanded,hpops,h₆])
  | waiting p h₁ h₂ h₃ h₄ h₅ h₆ h₇ =>
    exact Phase.waiting p (hpops.trans h₁) (hawait.trans h₂) (hstate.trans h₃) (hhandler.trans h₄)
      (hposted.trans h₅) (mt hpc.mp h₆) (hhanded.trans h₇)
  | serving p h₁ h₂ h₃ h₄ h₅ h₆ h₇ =>
    exact Phase.serving p (hpops.trans h₁) (hawait.trans h₂) (hstate.trans h₃) (hhandler.trans h₄)
      (hposted.trans h₅) (hpc.mpr h₆) (hhanded.trans h₇)
  | posted p c h₁ h₂ h₃ h₄ h₅ h₆ h₇ h₈ =>
    exact Phase.posted p c (hpops.trans h₁) (hawait.trans h₂) (hstate.trans h₃) (hhandler.trans h₄)
      (hposted.trans h₅) h₆ (mt hpc.mp h₇) (hhanded.trans h₈)

theorem Phase.idle_of_awaiting {s : State V} (h : Phase s) (ha : s.awaiting = false) :
    s.queue.state = .notWaiting ∧ s.posted = [] ∧ s.pc ≠ some .posting ∧
      handed s.log = firstHandlers s.pops := by
  cases h with
  | idle _ h₂ _ h₄ h₅ h₆ => exact ⟨h₂,h₄,h₅,h₆⟩
  | waiting p _ h₂ => simp [h₂] at ha
  | serving p _ h₂ => simp [h₂] at ha
  | posted p c _ h₂ => simp [h₂] at ha

/-- A new pop of an idle consumer waits, whatever else is under way. -/
theorem Phase.of_initiate {s t : State V} (h : Phase s) (ha : s.awaiting = false) {associated : Option ℕ}
    (hpc : t.pc ≠ some .posting) (hposted : t.posted = s.posted)
    (hsame : (t.queue,t.log,t.pops,t.awaiting) =
      ((s.initiate associated).queue,(s.initiate associated).log,s.pops+1,true)) : Phase t := by
  simp only [Prod.mk.injEq] at hsame
  obtain ⟨hqueue,hlog,hpops,hawait⟩ := hsame
  obtain ⟨h₁,h₂,h₃,h₄⟩ := h.idle_of_awaiting ha
  have hhanded : handed t.log = firstHandlers s.pops := by
    rw [hlog,s.initiate_log associated h₁]
    simpa using h₄
  exact Phase.waiting s.pops hpops hawait (by rw [hqueue]; rfl) (by rw [hqueue]; rfl)
    (hposted.trans h₂) hpc hhanded

theorem Phase.of_waiting {s t : State V} (h : Phase s) (hw : s.queue.state = .waiting)
    (hsame : (t.pc,t.queue,t.log,t.posted,t.pops,t.awaiting) =
      (some .posting,s.queue.exchange,s.log,s.posted,s.pops,s.awaiting)) : Phase t := by
  simp only [Prod.mk.injEq] at hsame
  obtain ⟨hpc,hqueue,hlog,hposted,hpops,hawait⟩ := hsame
  cases h with
  | idle _ h₂ => simp [h₂] at hw
  | serving p _ _ h₃ => simp [h₃] at hw
  | posted p c _ _ h₃ => simp [h₃] at hw
  | waiting p h₁ h₂ _ h₄ h₅ _ h₇ =>
    exact Phase.serving p (hpops.trans h₁) (hawait.trans h₂) (by rw [hqueue]; rfl)
      (by rw [hqueue]; exact h₄) (hposted.trans h₅) hpc (by rw [hlog,h₇])

theorem Phase.of_serving {s t : State V} (h : Phase s) (hs : s.pc = some .posting)
    (hpc : t.pc ≠ some .posting) (hhanded : handed t.log = handed s.log ++ [s.queue.handler])
    (hsame : (t.queue,t.posted,t.pops,t.awaiting) =
      (s.queue.moveOut,s.posted ++ [s.queue.completion],s.pops,s.awaiting)) : Phase t := by
  simp only [Prod.mk.injEq] at hsame
  obtain ⟨hqueue,hposted,hpops,hawait⟩ := hsame
  cases h with
  | idle _ _ _ _ h₅ => exact absurd hs h₅
  | waiting p _ _ _ _ _ h₆ => exact absurd hs h₆
  | posted p c _ _ _ _ _ _ h₇ => exact absurd hs h₇
  | serving p h₁ h₂ h₃ h₄ h₅ _ h₇ =>
    refine Phase.posted p s.queue.completion (hpops.trans h₁) (hawait.trans h₂) (by rw [hqueue]; exact h₃)
      (by rw [hqueue]; rfl) (by rw [hposted,h₅]; rfl) h₄ hpc ?_
    rw [hhanded,h₇,h₄,firstHandlers_succ]

theorem Phase.of_posted {s t : State V} (h : Phase s) {i : ℕ} {c : Completion V}
    (hc : s.posted[i]? = some c) (hhanded : handed t.log = handed s.log)
    (hsame : (t.posted,t.awaiting,t.queue,t.pops,t.pc) = (s.posted.eraseIdx i,false,s.queue,s.pops,s.pc)) :
    Phase t := by
  simp only [Prod.mk.injEq] at hsame
  obtain ⟨hposted,hawait,hqueue,hpops,hpc⟩ := hsame
  cases h with
  | idle _ _ _ h₄ => simp [h₄] at hc
  | waiting p _ _ _ _ h₅ => simp [h₅] at hc
  | serving p _ _ _ _ h₅ => simp [h₅] at hc
  | posted p d h₁ h₂ h₃ h₄ h₅ h₆ h₇ h₈ =>
    have hi : i = 0 := by
      by_contra hne
      rw [h₅,List.getElem?_eq_none (by simp; omega)] at hc
      simp at hc
    refine Phase.idle hawait (by rw [hqueue,h₃]) (by rw [hqueue,h₄]) (by rw [hposted,h₅,hi]; rfl)
      (by rw [hpc]; exact h₇) (by rw [hhanded,h₈,hpops,h₁])

theorem phase_step (s t : State V) (h : Phase s) (hstep : Step s t) : Phase t := by
  cases hstep with
  | call task => exact h.frame Iff.rfl rfl rfl
  | callInline task _ hr => exact h.frame (by simp [State.pc,hr]) rfl rfl
  | pop associated ha =>
    have hidle := (h.idle_of_awaiting ha).2.2.1
    exact h.of_initiate ha (by simpa [State.pc] using hidle) (s.initiate_posted associated) rfl
  | popInline associated ha hr =>
    exact h.of_initiate ha (by simp [State.pc]) (s.initiate_posted associated) rfl
  | begin i task hr => exact h.frame (by simp [State.pc,hr]) rfl rfl
  | wakeBody p n hr => exact h.frame (by simp [State.pc,hr]) rfl rfl
  | pushBody v n hr => exact h.frame (by simp [State.pc,hr]) (by simp) rfl
  | stopBody n hr => exact h.frame (by simp [State.pc,hr]) (by simp) rfl
  | cleared task n hr => exact h.frame (by simp [State.pc,hr]) rfl rfl
  | clear task n v vs hr => exact h.frame (by simp [State.pc,hr]) (by simp) rfl
  | nothing task n hr => exact h.frame (by simp [State.pc,hr]) rfl rfl
  | something task n hr => exact h.frame (by simp [State.pc,hr]) rfl rfl
  | wasWaiting task n hr hw => exact h.of_waiting hw rfl
  | wasNotWaiting task n hr hw => exact h.frame (by simp [State.pc,hr]) rfl (by simp [Impl.exchange,hw])
  | postError task n e hr => exact h.of_serving (by simp [State.pc,hr]) (by simp [State.pc]) (by simp) rfl
  | postValue task n hr => exact h.of_serving (by simp [State.pc,hr]) (by simp [State.pc]) (by simp) rfl
  | clearEc task n hr => exact h.frame (by simp [State.pc,hr]) rfl rfl
  | popFront task n hr => exact h.frame (by simp [State.pc,hr]) rfl rfl
  | invoke i c hc => exact h.of_posted hc (by simp) rfl

theorem reachable_phase {s : State V} (h : (machine V).Reachable s) : Phase s :=
  reachable_invariant (fun _ => Phase.idle rfl rfl rfl rfl (by simp [State.pc,State.init]) rfl) phase_step h

/-- What the log says of pops and handlers, whatever phase the last pop is in. -/
structure Orderly (s : State V) : Prop where
  initiated : initiated s.log = List.range s.pops
  asserted : .assertFailed ∉ s.log
  outside : ∀ h, .invoked h true ∉ s.log

theorem Orderly.of_log {s t : State V} (h : Orderly s) (hpops : t.pops = s.pops) (hlog : t.log = s.log) :
    Orderly t where
  initiated := by rw [hlog,hpops,h.initiated]
  asserted := by
    rw [hlog]
    exact h.asserted
  outside := by
    rw [hlog]
    exact h.outside

theorem Orderly.emit {s t : State V} (h : Orderly s) {e : Event V} (hlog : t.log = s.log ++ [e])
    (hassert : e ≠ .assertFailed) (hout : ∀ h, e ≠ .invoked h true)
    (hinit : e.initiated? = none) (hpops : t.pops = s.pops) : Orderly t where
  initiated := by rw [hlog,hpops,initiated_append,h.initiated,initiated_cons,hinit]; simp
  asserted := by
    rw [hlog,List.mem_append]
    rintro (hmem | hmem)
    · exact h.asserted hmem
    · exact hassert (List.mem_singleton.mp hmem).symm
  outside k := by
    rw [hlog,List.mem_append]
    rintro (hmem | hmem)
    · exact h.outside k hmem
    · exact hout k (List.mem_singleton.mp hmem).symm

theorem Orderly.pop {s t : State V} (h : Orderly s) (hidle : s.queue.state = .notWaiting)
    (associated : Option ℕ) (hpops : t.pops = s.pops+1) (hlog : t.log = (s.initiate associated).log) :
    Orderly t := by
  rw [s.initiate_log associated hidle] at hlog
  refine ⟨?_,?_,?_⟩
  · rw [hlog,hpops,initiated_append,h.initiated,List.range_succ]
    rfl
  · rw [hlog]
    simpa using h.asserted
  · rw [hlog]
    simpa using h.outside

theorem orderly_step (s t : State V) (h : Phase s ∧ Orderly s) (hstep : Step s t) : Phase t ∧ Orderly t := by
  obtain ⟨hphase,h⟩ := h
  refine ⟨phase_step s t hphase hstep,?_⟩
  cases hstep with
  | pop associated ha => exact h.pop (hphase.idle_of_awaiting ha).1 associated rfl rfl
  | popInline associated ha => exact h.pop (hphase.idle_of_awaiting ha).1 associated rfl rfl
  | pushBody => exact h.emit rfl (by simp) (by simp) rfl rfl
  | stopBody => exact h.emit rfl (by simp) (by simp) rfl rfl
  | clear => exact h.emit rfl (by simp) (by simp) rfl rfl
  | postError => exact h.emit rfl (by simp) (by simp) rfl rfl
  | postValue => exact h.emit rfl (by simp) (by simp) rfl rfl
  | invoke => exact h.emit rfl (by simp) (by simp) rfl rfl
  | _ => exact h.of_log rfl rfl

theorem reachable_orderly {s : State V} (h : (machine V).Reachable s) : Orderly s :=
  (reachable_invariant (I := fun s => Phase s ∧ Orderly s)
    (fun _ => ⟨Phase.idle rfl rfl rfl rfl (by simp [State.pc,State.init]) rfl,
      ⟨rfl,by simp [State.init],by simp [State.init]⟩⟩) orderly_step h).2

/-- The steps of a task that come before its exchange of the waiting state. -/
def Pc.mayServe : Pc → Bool
  | .body | .clearing | .testing | .exchanging => true
  | .posting | .clearingEc | .popping => false

/-- Some task has not yet come to its exchange. -/
def State.Stirring (s : State V) : Prop := s.tasks ≠ [] ∨ ∃ pc, s.pc = some pc ∧ pc.mayServe = true

/-- A waiting pop with something to fetch is about to be served: this is what a push, a stop or a
stale wake-up must not lose. -/
def Woken (s : State V) : Prop := s.queue.state = .waiting → s.queue.empty = false → s.Stirring

theorem tasks_of_stirring {s : State V} (h : s.Stirring) {pc : Pc} (hpc : s.pc = some pc)
    (hlate : pc.mayServe = false) : s.tasks ≠ [] := by
  rcases h with htasks | ⟨qc,hqc,hserve⟩
  · exact htasks
  · rw [hpc,Option.some.injEq] at hqc
    rw [← hqc,hlate] at hserve
    exact absurd hserve (by decide)

theorem Phase.not_waiting_of_posting {s : State V} (h : Phase s) (hpc : s.pc = some .posting) :
    s.queue.state = .notWaiting := by
  cases h with
  | idle _ h₂ => exact h₂
  | waiting p _ _ _ _ _ h₆ => exact absurd hpc h₆
  | serving p _ _ h₃ => exact h₃
  | posted p c _ _ h₃ => exact h₃

theorem woken_step {s t : State V} (hphase : Phase s) (h : Woken s) (hstep : Step s t) : Woken t := by
  intro hw he
  cases hstep with
  | call => exact Or.inl (by simp)
  | pop => exact Or.inl (by simp)
  | callInline => exact Or.inr ⟨.body,rfl,rfl⟩
  | popInline => exact Or.inr ⟨.body,rfl,rfl⟩
  | begin => exact Or.inr ⟨.body,rfl,rfl⟩
  | wakeBody => exact Or.inr ⟨.testing,rfl,rfl⟩
  | pushBody => exact Or.inr ⟨.testing,rfl,rfl⟩
  | stopBody => exact Or.inr ⟨.clearing,rfl,rfl⟩
  | cleared => exact Or.inr ⟨.testing,rfl,rfl⟩
  | clear task n v vs hr => exact Or.inr ⟨.clearing,by simp [State.pc,hr],rfl⟩
  | something => exact Or.inr ⟨.exchanging,rfl,rfl⟩
  | nothing task n hr hempty => exact absurd he (by simp [hempty])
  | wasWaiting => exact absurd hw (by simp [Impl.exchange])
  | wasNotWaiting => exact absurd hw (by simp [Impl.exchange])
  | postError task n e hr =>
    have hstate := hphase.not_waiting_of_posting (by simp [State.pc,hr])
    exact absurd hw (by simp [Impl.moveOut,hstate])
  | postValue task n hr =>
    have hstate := hphase.not_waiting_of_posting (by simp [State.pc,hr])
    exact absurd hw (by simp [Impl.moveOut,hstate])
  | clearEc task n hr =>
    have hbefore : s.queue.empty = false := by
      simp only [Impl.empty,Option.isNone_none,Bool.and_true] at he
      simp [Impl.empty,he]
    have hdue : s.Stirring := h hw hbefore
    have hpc : s.pc = some .clearingEc := by simp [State.pc,hr]
    have htasks : s.tasks ≠ [] := tasks_of_stirring hdue hpc rfl
    exact Or.inl htasks
  | popFront task n hr =>
    have hbefore : s.queue.empty = false := by
      cases hv : s.queue.values with
      | nil => simpa [Impl.empty,hv] using he
      | cons v vs => simp [Impl.empty,hv]
    have hdue : s.Stirring := h hw hbefore
    have hpc : s.pc = some .popping := by simp [State.pc,hr]
    have htasks : s.tasks ≠ [] := tasks_of_stirring hdue hpc rfl
    exact Or.inl htasks
  | invoke => exact h hw he

theorem reachable_woken {s : State V} (h : (machine V).Reachable s) : Woken s := by
  refine h.invariant_reachable (I := Woken) ?_ ?_
  · rintro s ⟨exec,rfl⟩ hw
    simp [State.init,Impl.construct] at hw
  · intro s a t hr hi ha
    exact woken_step (reachable_phase hr) hi (step_cases ha)

theorem Phase.handed_count {s : State V} (h : Phase s) :
    (handed s.log).length = s.pops ∨ (handed s.log).length + 1 = s.pops := by
  cases h with
  | idle _ _ _ _ _ h₆ => exact Or.inl (by simp [h₆,firstHandlers])
  | waiting p h₁ _ _ _ _ _ h₇ => exact Or.inr (by simp [h₇,firstHandlers,h₁])
  | serving p h₁ _ _ _ _ _ h₇ => exact Or.inr (by simp [h₇,firstHandlers,h₁])
  | posted p c h₁ _ _ _ _ _ _ h₈ => exact Or.inl (by simp [h₈,firstHandlers,h₁])

theorem Phase.handed_eq {s : State V} (h : Phase s) : ∃ n, n ≤ s.pops ∧ handed s.log = firstHandlers n := by
  cases h with
  | idle _ _ _ _ _ h₆ => exact ⟨s.pops,le_rfl,h₆⟩
  | waiting p h₁ _ _ _ _ _ h₇ => exact ⟨p,by omega,h₇⟩
  | serving p h₁ _ _ _ _ _ h₇ => exact ⟨p,by omega,h₇⟩
  | posted p c h₁ _ _ _ _ _ _ h₈ => exact ⟨p+1,by omega,h₈⟩

/-- Between tasks a pop is outstanding exactly when the queue waits, and then its handler is stored. -/
theorem Phase.between_tasks {s : State V} (h : Phase s) (hr : s.running = none) :
    ((handed s.log).length + 1 = s.pops ↔ s.queue.state = .waiting) ∧
      (s.queue.state = .waiting → ∃ p, s.pops = p+1 ∧ s.queue.handler = some p) := by
  cases h with
  | idle _ h₂ _ _ _ h₆ => simp [h₂,h₆,firstHandlers]
  | waiting p h₁ _ h₃ h₄ _ _ h₇ => simp [h₃,h₇,firstHandlers,h₁,h₄]
  | serving p _ _ _ _ _ h₆ => simp [State.pc,hr] at h₆
  | posted p c h₁ _ h₃ _ _ _ _ h₈ => simp [h₃,h₈,firstHandlers,h₁]

/-- Every pop is completed exactly once and no wake-up is lost, in every run. -/
theorem pop_completes_once {s : State V} (h : (machine V).Reachable s) :
    Event.assertFailed ∉ s.log ∧
    (handed s.log).Nodup ∧ (∀ x ∈ handed s.log, ∃ p ∈ initiated s.log, x = some p) ∧
    (∀ x, Event.invoked x true ∉ s.log) ∧
    ((initiated s.log).length = (handed s.log).length ∨
      (initiated s.log).length = (handed s.log).length + 1) ∧
    (s.running = none →
      ((initiated s.log).length = (handed s.log).length + 1 ↔ s.queue.state = .waiting)) ∧
    (s.running = none → s.queue.state = .waiting →
      ∃ p, (initiated s.log).getLast? = some p ∧ s.queue.handler = some p) ∧
    (s.running = none → s.tasks = [] →
      ¬ (s.queue.state = .waiting ∧ (s.queue.values ≠ [] ∨ s.queue.ec ≠ none))) := by
  have hphase := reachable_phase h
  have horder := reachable_orderly h
  have hlen : (initiated s.log).length = s.pops := by rw [horder.initiated,List.length_range]
  obtain ⟨n,hn,hhanded⟩ := hphase.handed_eq
  refine ⟨horder.asserted,?_,?_,horder.outside,?_,?_,?_,?_⟩
  · rw [hhanded]
    exact firstHandlers_nodup n
  · intro x hx
    rw [hhanded,firstHandlers] at hx
    obtain ⟨p,hp,rfl⟩ := List.mem_map.mp hx
    refine ⟨p,?_,rfl⟩
    rw [horder.initiated,List.mem_range]
    exact lt_of_lt_of_le (List.mem_range.mp hp) hn
  · rw [hlen]
    rcases hphase.handed_count with hc | hc
    · exact Or.inl hc.symm
    · exact Or.inr hc.symm
  · intro hr
    rw [hlen,← (hphase.between_tasks hr).1,eq_comm]
  · intro hr hw
    obtain ⟨p,hp,hhandler⟩ := (hphase.between_tasks hr).2 hw
    exact ⟨p,by simp [horder.initiated,hp,List.range_succ],hhandler⟩
  · rintro hr htasks ⟨hw,hsome⟩
    have hne : s.queue.empty = false := by
      rcases hsome with hv | he
      · simp [Impl.empty,hv]
      · cases hec : s.queue.ec with
        | none => exact absurd hec he
        | some e => simp [Impl.empty,hec]
    rcases reachable_woken h hw hne with ht | ⟨pc,hpc,-⟩
    · exact ht htasks
    · simp [State.pc,hr] at hpc

def popThenStop : List (Action String) :=
  [.asyncPop (some 1) false,.stop false,.begin 0,.advance,.advance,
    .begin 0,.advance,.advance,.advance,.advance,.advance,.advance,.invoke 0]

theorem pop_completes_once_popThenStop :
    ∃ s, (machine String).replay (State.init 0) popThenStop = some s ∧ handed s.log = [some 0] ∧
      Event.assertFailed ∉ s.log ∧ (handed s.log).Nodup := by
  refine ⟨_,rfl,rfl,?_⟩
  have hrun : (machine String).replay (State.init 0) popThenStop = some _ := rfl
  have h := pop_completes_once (Machine.Reachable.of_replay ⟨0,rfl⟩ hrun)
  exact ⟨h.1,h.2.1⟩

end AsyncQueue
end BeastWebsocketEcho
