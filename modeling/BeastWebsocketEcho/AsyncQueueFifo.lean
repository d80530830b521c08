import BeastWebsocketEcho.AsyncQueueWakeup
import BeastWebsocketEcho.Ledger

/-!
# Conservation and order of the values of a queue

Every reachable state of the queue machine keeps the books of a first-in first-out
ledger: a push enters a value, a hand-over and the loop of `stop` take the oldest one
out. The moved-from front, which stays in `values` until the running task removes it,
no longer counts as waiting.
-/

namespace BeastWebsocketEcho
namespace AsyncQueue

variable {V : Type}

def State.held (s : State V) : List (Option V) :=
  if s.pc = some .popping then s.queue.values.tail else s.queue.values

theorem State.held_of_pc {s : State V} (h : s.pc ≠ some .popping) : s.held = s.queue.values := by
  simp [State.held,h]

/-- The ledger of a state: what was pushed, what was taken out, what is held. -/
structure Books (s : State V) (l : Ledger (Option V) Fate) : Prop where
  entered : l.entered = (pushed s.log).map some
  left : l.left = taken s.log
  waiting : l.waiting = s.held

theorem Books.frame {s t : State V} {l : Ledger (Option V) Fate} (h : Books s l) (hheld : t.held = s.held)
    (hlog : (pushed t.log,taken t.log) = (pushed s.log,taken s.log)) : Books t l := by
  simp only [Prod.mk.injEq] at hlog
  obtain ⟨hpushed,htaken⟩ := hlog
  exact ⟨by rw [hpushed,h.entered],by rw [htaken,h.left],by rw [hheld,h.waiting]⟩

/-- A task between its test and its hand-over found something to hand over. -/
def Ready (s : State V) : Prop := s.pc = some .exchanging ∨ s.pc = some .posting → s.queue.empty = false

theorem Ready.of_pc {s : State V} (h₁ : s.pc ≠ some .exchanging) (h₂ : s.pc ≠ some .posting) : Ready s := by
  rintro (h | h)
  · exact absurd h h₁
  · exact absurd h h₂

theorem ready_step (s t : State V) (h : Ready s) (hstep : Step s t) : Ready t := by
  cases hstep with
  | call => exact h
  | pop => intro hpc; exact h (by simpa [State.pc] using hpc)
  | something task n hr he => intro _; exact he
  | wasWaiting task n hr => intro _; exact h (Or.inl (by simp [State.pc,hr]))
  | clear task n v vs hr => exact Ready.of_pc (by simp [State.pc,hr]) (by simp [State.pc,hr])
  | invoke => exact h
  | _ => exact Ready.of_pc (by simp [State.pc]) (by simp [State.pc])

theorem reachable_ready {s : State V} (h : (machine V).Reachable s) : Ready s :=
  reachable_invariant (fun _ => Ready.of_pc (by simp [State.pc,State.init]) (by simp [State.pc,State.init]))
    ready_step h

theorem books_step {s t : State V} (hready : Ready s) {l : Ledger (Option V) Fate} (h : Books s l)
    (hidle : s.awaiting = false → s.queue.state = .notWaiting) (hstep : Step s t) : ∃ k, Books t k := by
  cases hstep with
  | call => exact ⟨l,h.frame rfl rfl⟩
  | callInline task _ hr => exact ⟨l,h.frame (by simp [State.held,State.pc,hr]) rfl⟩
  | pop associated ha =>
    refine ⟨l,h.frame ?_ ?_⟩
    · simp [State.held,State.pc,Impl.asyncPop]
    · simp [s.initiate_log associated (hidle ha)]
  | popInline associated ha hr =>
    refine ⟨l,h.frame ?_ ?_⟩
    · simp [State.held,State.pc,Impl.asyncPop,hr]
    · simp [s.initiate_log associated (hidle ha)]
  | begin i task hr => exact ⟨l,h.frame (by simp [State.held,State.pc,hr]) rfl⟩
  | wakeBody p n hr => exact ⟨l,h.frame (by simp [State.held,State.pc,hr]) rfl⟩
  | pushBody v n hr =>
    have hheld : s.held = s.queue.values := State.held_of_pc (by simp [State.pc,hr])
    refine ⟨l.enter (some v),?_,?_,?_⟩
    · simp [Ledger.enter,h.entered]
    · simp [Ledger.enter,h.left]
    · rw [State.held_of_pc (by simp [State.pc])]
      simp [Ledger.enter,h.waiting,hheld]
  | stopBody n hr => exact ⟨l,h.frame (by simp [State.held,State.pc,hr]) (by simp)⟩
  | cleared task n hr => exact ⟨l,h.frame (by simp [State.held,State.pc,hr]) rfl⟩
  | clear task n v vs hr hv =>
    have hheld : s.held = v :: vs := by rw [State.held_of_pc (by simp [State.pc,hr]),hv]
    refine ⟨l.leave v vs .discarded (h.waiting.trans hheld),?_,?_,?_⟩
    · simp [Ledger.leave,h.entered]
    · simp [Ledger.leave,h.left]
    · simp [Ledger.leave,State.held,State.pc,hr]
  | nothing task n hr => exact ⟨l,h.frame (by simp [State.held,State.pc,hr]) rfl⟩
  | something task n hr => exact ⟨l,h.frame (by simp [State.held,State.pc,hr]) rfl⟩
  | wasWaiting task n hr => exact ⟨l,h.frame (by simp [State.held,State.pc,hr,Impl.exchange]) rfl⟩
  | wasNotWaiting task n hr => exact ⟨l,h.frame (by simp [State.held,State.pc,hr,Impl.exchange]) rfl⟩
  | postError task n e hr he =>
    exact ⟨l,h.frame (by simp [State.held,State.pc,hr,Impl.moveOut,he]) (by simp)⟩
  | postValue task n hr he =>
    -- The test found a value, so there is a front to move out.
    have hsome := hready (Or.inr (by simp [State.pc,hr]))
    obtain ⟨x,xs,hv⟩ : ∃ x xs, s.queue.values = x :: xs := by
      cases hv : s.queue.values with
      | nil => simp [Impl.empty,hv,he] at hsome
      | cons x xs => exact ⟨x,xs,rfl⟩
    have hheld : s.held = x :: xs := by rw [State.held_of_pc (by simp [State.pc,hr]),hv]
    refine ⟨l.leave x xs .delivered (h.waiting.trans hheld),?_,?_,?_⟩
    · simp [Ledger.leave,h.entered]
    · simp [Ledger.leave,h.left,hv]
    · simp [Ledger.leave,State.held,State.pc,Impl.moveOut,he,hv]
  | clearEc task n hr => exact ⟨l,h.frame (by simp [State.held,State.pc,hr]) rfl⟩
  | popFront task n hr => exact ⟨l,h.frame (by simp [State.held,State.pc,hr]) rfl⟩
  | invoke => exact ⟨l,h.frame rfl (by simp)⟩

/-- The queue keeps the books of a ledger in every reachable state. -/
theorem reachable_books {s : State V} (h : (machine V).Reachable s) : ∃ l, Books s l := by
  refine h.invariant_reachable (I := fun s => ∃ l, Books s l) ?_ ?_
  · rintro s ⟨exec,rfl⟩
    exact ⟨Ledger.empty,rfl,rfl,by simp [Ledger.empty,State.held,State.pc,State.init,Impl.construct]⟩
  · rintro s a t hr ⟨l,hl⟩ ha
    exact books_step (reachable_ready hr) hl (fun hidle => ((reachable_phase hr).idle_of_awaiting hidle).1)
      (step_cases ha)

/-- The log ends inside a stop task: since its error was set nothing was pushed or handed over. -/
def InStop (log : List (Event V)) : Prop :=
  ∃ earlier mid, log = earlier ++ .stopped :: mid ∧ pushed mid = [] ∧ handed mid = [] ∧ .stopped ∉ mid

theorem InStop.snoc {log : List (Event V)} (h : InStop log) {e : Event V} (hstop : e ≠ .stopped)
    (hsilent : (e.pushed?,e.handed?) = (none,none)) : InStop (log ++ [e]) := by
  simp only [Prod.mk.injEq] at hsilent
  obtain ⟨hpush,hhand⟩ := hsilent
  obtain ⟨earlier,mid,rfl,h₁,h₂,h₃⟩ := h
  refine ⟨earlier,mid ++ [e],by simp,?_,?_,?_⟩
  · rw [pushed_append,h₁,pushed_cons,hpush]
    rfl
  · rw [handed_append,h₂,handed_cons,hhand]
    rfl
  · simpa [h₃] using Ne.symm hstop

/-- Whatever was pushed before any stop of the log is among the first `n` values pushed. -/
def ClearedUpTo (n : ℕ) (log : List (Event V)) : Prop :=
  Chronicle (fun before e => e = .stopped → (pushed before).length ≤ n) log

theorem ClearedUpTo.mono {n m : ℕ} {log : List (Event V)} (h : ClearedUpTo n log) (hnm : n ≤ m) :
    ClearedUpTo m log := Chronicle.mono (fun _ _ hn he => (hn he).trans hnm) h

theorem ClearedUpTo.snoc {n m : ℕ} {log : List (Event V)} (h : ClearedUpTo n log) {e : Event V}
    (hnm : n ≤ m) (he : e ≠ .stopped) : ClearedUpTo m (log ++ [e]) :=
  Chronicle.snoc (h.mono hnm) fun hstop => absurd hstop he

theorem clearedUpTo_of_length {n : ℕ} {log : List (Event V)} (h : (pushed log).length ≤ n) :
    ClearedUpTo n log := by
  rintro before e after rfl -
  refine le_trans ?_ h
  simp

/-- What a stop task has done so far, and what all earlier ones have done. -/
structure Stops (s : State V) : Prop where
  clearing : s.pc = some .clearing → InStop s.log
  cleared : s.pc ≠ some .clearing → ClearedUpTo (taken s.log).length s.log

theorem Stops.of_pc {s t : State V} (h : Stops s) (hs : s.pc ≠ some .clearing) (ht : t.pc ≠ some .clearing)
    (hlog : t.log = s.log) : Stops t :=
  ⟨fun hpc => absurd hpc ht,fun _ => by rw [hlog]; exact h.cleared hs⟩

theorem Stops.of_emit {s t : State V} (h : Stops s) (hs : s.pc ≠ some .clearing) (ht : t.pc ≠ some .clearing)
    {e : Event V} (hlog : t.log = s.log ++ [e]) (he : e ≠ .stopped) : Stops t := by
  refine ⟨fun hpc => absurd hpc ht,fun _ => ?_⟩
  rw [hlog]
  exact (h.cleared hs).snoc (by simp) he

/-- The consumer's own events may fall anywhere, also inside a stop task. -/
theorem Stops.of_consumer {s t : State V} (h : Stops s) (hpc : t.pc = s.pc) {e : Event V}
    (hlog : t.log = s.log ++ [e]) (hstop : e ≠ .stopped)
    (hsilent : (e.pushed?,e.handed?) = (none,none)) : Stops t := by
  refine ⟨fun ht => ?_,fun ht => ?_⟩
  · rw [hlog]
    exact (h.clearing (hpc ▸ ht)).snoc hstop hsilent
  · rw [hlog]
    exact (h.cleared (hpc ▸ ht)).snoc (by simp) hstop

theorem stops_step {s t : State V} {l : Ledger (Option V) Fate} (hbooks : Books s l) (h : Stops s)
    (hidle : s.awaiting = false → s.queue.state = .notWaiting) (hstep : Step s t) : Stops t := by
  cases hstep with
  | call => exact ⟨h.clearing,h.cleared⟩
  | callInline task _ hr => exact h.of_pc (by simp [State.pc,hr]) (by simp [State.pc]) rfl
  | pop associated ha =>
    exact h.of_consumer (by simp [State.pc]) (s.initiate_log associated (hidle ha)) (by simp) rfl
  | popInline associated ha hr =>
    exact h.of_emit (by simp [State.pc,hr]) (by simp [State.pc]) (s.initiate_log associated (hidle ha)) (by simp)
  | begin i task hr => exact h.of_pc (by simp [State.pc,hr]) (by simp [State.pc]) rfl
  | wakeBody p n hr => exact h.of_pc (by simp [State.pc,hr]) (by simp [State.pc]) rfl
  | pushBody v n hr => exact h.of_emit (by simp [State.pc,hr]) (by simp [State.pc]) rfl (by simp)
  | stopBody n hr =>
    refine ⟨fun _ => ⟨s.log,[],rfl,rfl,rfl,by simp⟩,fun hpc => absurd rfl hpc⟩
  | cleared task n hr hv =>
    -- The loop ended with nothing left, so all that was ever pushed has been taken out.
    have hwait : l.waiting = [] := by
      rw [hbooks.waiting,State.held_of_pc (by simp [State.pc,hr]),hv]
    have hall := l.left_length_of_waiting_nil hwait
    rw [hbooks.left,hbooks.entered,List.length_map] at hall
    exact ⟨fun hpc => absurd hpc (by simp [State.pc]),fun _ => clearedUpTo_of_length hall.ge⟩
  | clear task n v vs hr =>
    refine ⟨fun _ => ?_,fun hpc => absurd (by simp [State.pc,hr]) hpc⟩
    exact (h.clearing (by simp [State.pc,hr])).snoc (by simp) rfl
  | nothing task n hr => exact h.of_pc (by simp [State.pc,hr]) (by simp [State.pc]) rfl
  | something task n hr => exact h.of_pc (by simp [State.pc,hr]) (by simp [State.pc]) rfl
  | wasWaiting task n hr => exact h.of_pc (by simp [State.pc,hr]) (by simp [State.pc]) rfl
  | wasNotWaiting task n hr => exact h.of_pc (by simp [State.pc,hr]) (by simp [State.pc]) rfl
  | postError task n e hr => exact h.of_emit (by simp [State.pc,hr]) (by simp [State.pc]) rfl (by simp)
  | postValue task n hr => exact h.of_emit (by simp [State.pc,hr]) (by simp [State.pc]) rfl (by simp)
  | clearEc task n hr => exact h.of_pc (by simp [State.pc,hr]) (by simp [State.pc]) rfl
  | popFront task n hr => exact h.of_pc (by simp [State.pc,hr]) (by simp [State.pc]) rfl
  | invoke => exact h.of_consumer rfl rfl (by simp) rfl

theorem reachable_stops {s : State V} (h : (machine V).Reachable s) : Stops s := by
  refine h.invariant_reachable ?_ ?_
  · rintro s ⟨exec,rfl⟩
    exact ⟨by simp [State.pc,State.init],fun _ => Chronicle.nil⟩
  · intro s a t hr hi ha
    obtain ⟨l,hl⟩ := reachable_books hr
    exact stops_step hl hi (fun hidle => ((reachable_phase hr).idle_of_awaiting hidle).1) (step_cases ha)

/-- A value is discarded inside a stop task, which began when the value had been pushed, and
while it is the oldest value not taken out. -/
def DiscardedByStop (before : List (Event V)) (v : Option V) : Prop :=
  ∃ earlier mid rest, before = earlier ++ .stopped :: mid ∧
    pushed mid = [] ∧ handed mid = [] ∧ .stopped ∉ mid ∧
    (pushed earlier).map some = (taken before).map Prod.fst ++ v :: rest

/-- What must have held when an event was logged. -/
def Lawful (before : List (Event V)) (e : Event V) : Prop :=
  (∀ v, e = .discarded v → DiscardedByStop before v) ∧
    ∀ x v, e = .handed x none v → ClearedUpTo (taken before).length before

theorem lawful_of_other {before : List (Event V)} {e : Event V} (h₁ : ∀ v, e ≠ .discarded v)
    (h₂ : ∀ x v, e ≠ .handed x none v) : Lawful before e :=
  ⟨fun v he => absurd he (h₁ v),fun x v he => absurd he (h₂ x v)⟩

theorem lawful_step {s t : State V} {l : Ledger (Option V) Fate} (hbooks : Books s l) (hstops : Stops s)
    (hidle : s.awaiting = false → s.queue.state = .notWaiting) (h : Chronicle Lawful s.log)
    (hstep : Step s t) : Chronicle Lawful t.log := by
  cases hstep with
  | pop associated ha =>
    rw [show _ = s.log ++ [Event.initiated s.pops] from s.initiate_log associated (hidle ha)]
    exact h.snoc (lawful_of_other (by simp) (by simp))
  | popInline associated ha =>
    rw [show _ = s.log ++ [Event.initiated s.pops] from s.initiate_log associated (hidle ha)]
    exact h.snoc (lawful_of_other (by simp) (by simp))
  | pushBody => exact h.snoc (lawful_of_other (by simp) (by simp))
  | stopBody => exact h.snoc (lawful_of_other (by simp) (by simp))
  | postError => exact h.snoc (lawful_of_other (by simp) (by simp))
  | invoke => exact h.snoc (lawful_of_other (by simp) (by simp))
  | clear task n v vs hr hv =>
    refine h.snoc ⟨fun w hw => ?_,by simp⟩
    obtain rfl : v = w := by simpa using hw
    obtain ⟨earlier,mid,hlog,h₁,h₂,h₃⟩ := hstops.clearing (by simp [State.pc,hr])
    refine ⟨earlier,mid,vs,hlog,h₁,h₂,h₃,?_⟩
    have hheld : s.held = v :: vs := by rw [State.held_of_pc (by simp [State.pc,hr]),hv]
    have hearlier : pushed s.log = pushed earlier := by simp [hlog,h₁]
    rw [← hearlier,← hbooks.entered,l.balance,hbooks.left,hbooks.waiting,hheld]
  | postValue task n hr => exact h.snoc ⟨by simp,fun _ _ _ => hstops.cleared (by simp [State.pc,hr])⟩
  | _ => exact h

theorem reachable_lawful {s : State V} (h : (machine V).Reachable s) : Chronicle Lawful s.log := by
  refine h.invariant_reachable (I := fun s => Chronicle Lawful s.log) ?_ ?_
  · rintro s ⟨exec,rfl⟩
    exact Chronicle.nil
  · intro s a t hr hi ha
    obtain ⟨l,hl⟩ := reachable_books hr
    exact lawful_step hl (reachable_stops hr) (fun hidle => ((reachable_phase hr).idle_of_awaiting hidle).1) hi
      (step_cases ha)

theorem successes_handlers (log : List (Event V)) :
    List.Sublist ((successes log).map Prod.fst) (handed log) := by
  induction log with
  | nil => exact List.Sublist.refl _
  | cons e log ih =>
    rw [successes_cons,handed_cons,List.map_append]
    refine List.Sublist.append ?_ ih
    cases e with
    | handed x ec v => cases ec <;> simp
    | _ => simp

/-- Conservation and order. Between tasks, what was pushed is what was taken out followed by what
is still in `values`; the delivered values are those of the successful completions, whose handlers
are all different; only a stop that came after the push of a value discards it; and no value pushed
before a stop is delivered after it. -/
theorem values_conserved {s : State V} (h : (machine V).Reachable s) (hr : s.running = none) :
    (pushed s.log).map some = (taken s.log).map Prod.fst ++ s.queue.values ∧
    (successes s.log).map Prod.snd =
      ((taken s.log).filter fun x => x.2 == Fate.delivered).map Prod.fst ∧
    ((successes s.log).map Prod.fst).Nodup ∧
    (∀ before v after, s.log = before ++ .discarded v :: after →
      ∃ earlier mid rest, before = earlier ++ .stopped :: mid ∧
        pushed mid = [] ∧ handed mid = [] ∧ .stopped ∉ mid ∧
        (pushed earlier).map some = (taken before).map Prod.fst ++ v :: rest) ∧
    (∀ before x v after, s.log = before ++ .handed x none v :: after →
      ∀ earlier mid, before = earlier ++ .stopped :: mid →
        (pushed earlier).length ≤ (taken before).length) := by
  obtain ⟨l,hl⟩ := reachable_books h
  have hlaw := reachable_lawful h
  obtain ⟨n,-,hhanded⟩ := (reachable_phase h).handed_eq
  refine ⟨?_,successes_values s.log,?_,?_,?_⟩
  · rw [← hl.entered,l.balance,hl.left,hl.waiting,State.held_of_pc (by simp [State.pc,hr])]
  · refine (successes_handlers s.log).nodup ?_
    rw [hhanded]
    exact firstHandlers_nodup n
  · intro before v after hlog
    exact (hlaw before _ after hlog).1 v rfl
  · intro before x v after hlog earlier mid hbefore
    exact (hlaw before _ after hlog).2 x v rfl earlier _ mid hbefore rfl

def threeValues : List (Action String) :=
  [.push "a" false,.push "b" false,.push "c" false,
    .begin 0,.advance,.advance,.advance,.begin 0,.advance,.advance,.advance,.begin 0,.advance,.advance,.advance,
    .asyncPop (some 1) false,.begin 0,.advance,.advance,.advance,.advance,.advance,.invoke 0,
    .stop false,.begin 0,.advance,.advance,.advance,.advance,.advance,.advance]

theorem values_conserved_threeValues :
    ∃ s, (machine String).replay (State.init 0) threeValues = some s ∧
      taken s.log = [(some "a",.delivered),(some "b",.discarded),(some "c",.discarded)] ∧
      (pushed s.log).map some = (taken s.log).map Prod.fst ++ s.queue.values := by
  refine ⟨_,rfl,rfl,?_⟩
  have hrun : (machine String).replay (State.init 0) threeValues = some _ := rfl
  exact (values_conserved (Machine.Reachable.of_replay ⟨0,rfl⟩ hrun) rfl).1

end AsyncQueue
end BeastWebsocketEcho
