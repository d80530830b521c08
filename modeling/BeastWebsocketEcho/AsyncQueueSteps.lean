import BeastWebsocketEcho.AsyncQueue
import BeastWebsocketEcho.Chronicle

/-!
# What one step of the queue machine can do

The functions of the first part read the log: the pops initiated, the handlers posted,
the values pushed, and the values taken out with their fate. `Step` lists every atomic
step with the state it leads to, and `step_cases` shows that the machine takes no others.
-/

namespace BeastWebsocketEcho
namespace AsyncQueue

variable {V : Type}

/-- How a value left the queue: given to a handler, or removed by `stop`. -/
inductive Fate
  | delivered | discarded
  deriving DecidableEq, Repr

namespace Event

@[simp] def initiated? : Event V → Option ℕ
  | .initiated p => some p
  | _ => none

@[simp] def handed? : Event V → Option (Option ℕ)
  | .handed h _ _ => some h
  | _ => none

@[simp] def success? : Event V → Option (Option ℕ × Option V)
  | .handed h none v => some (h,v)
  | _ => none

@[simp] def pushed? : Event V → Option V
  | .pushed v => some v
  | _ => none

@[simp] def taken? : Event V → Option (Option V × Fate)
  | .handed _ none v => some (v,.delivered)
  | .discarded v => some (v,.discarded)
  | _ => none

end Event

def initiated (log : List (Event V)) : List ℕ := log.filterMap Event.initiated?
def handed (log : List (Event V)) : List (Option ℕ) := log.filterMap Event.handed?
/-- The successful completions: which handler was given which value. -/
def successes (log : List (Event V)) : List (Option ℕ × Option V) := log.filterMap Event.success?
def pushed (log : List (Event V)) : List V := log.filterMap Event.pushed?
def taken (log : List (Event V)) : List (Option V × Fate) := log.filterMap Event.taken?

section Logs

variable (l k : List (Event V)) (e : Event V)

@[simp] theorem initiated_append : initiated (l ++ k) = initiated l ++ initiated k := List.filterMap_append
@[simp] theorem handed_append : handed (l ++ k) = handed l ++ handed k := List.filterMap_append
@[simp] theorem successes_append : successes (l ++ k) = successes l ++ successes k := List.filterMap_append
@[simp] theorem pushed_append : pushed (l ++ k) = pushed l ++ pushed k := List.filterMap_append
@[simp] theorem taken_append : taken (l ++ k) = taken l ++ taken k := List.filterMap_append

@[simp] theorem initiated_nil : initiated ([] : List (Event V)) = [] := rfl
@[simp] theorem handed_nil : handed ([] : List (Event V)) = [] := rfl
@[simp] theorem successes_nil : successes ([] : List (Event V)) = [] := rfl
@[simp] theorem pushed_nil : pushed ([] : List (Event V)) = [] := rfl
@[simp] theorem taken_nil : taken ([] : List (Event V)) = [] := rfl

@[simp] theorem initiated_cons : initiated (e :: l) = e.initiated?.toList ++ initiated l :=
  filterMap_cons_toList _ _ _
@[simp] theorem handed_cons : handed (e :: l) = e.handed?.toList ++ handed l :=
  filterMap_cons_toList _ _ _
@[simp] theorem successes_cons : successes (e :: l) = e.success?.toList ++ successes l :=
  filterMap_cons_toList _ _ _
@[simp] theorem pushed_cons : pushed (e :: l) = e.pushed?.toList ++ pushed l :=
  filterMap_cons_toList _ _ _
@[simp] theorem taken_cons : taken (e :: l) = e.taken?.toList ++ taken l :=
  filterMap_cons_toList _ _ _

theorem successes_values : (successes l).map Prod.snd =
    ((taken l).filter fun x => x.2 == Fate.delivered).map Prod.fst := by
  induction l with
  | nil => rfl
  | cons e l ih =>
    rw [successes_cons,taken_cons]
    rcases e with p | _ | v | _ | v | ⟨h,ec,v⟩ | ⟨h,b⟩
    case handed => cases ec <;> simp [ih]
    all_goals simp [ih]

end Logs

inductive Step (s : State V) : State V → Prop
  | call (t : Task V) (ht : ∀ p, t ≠ .wake p) : Step s { s with tasks := s.tasks ++ [t] }
  | callInline (t : Task V) (ht : ∀ p, t ≠ .wake p) (hr : s.running = none) :
      Step s { s with running := some ⟨t,.body,true⟩ }
  | pop (associated : Option ℕ) (ha : s.awaiting = false) :
      Step s { s.initiate associated with tasks := s.tasks ++ [.wake s.pops] }
  | popInline (associated : Option ℕ) (ha : s.awaiting = false) (hr : s.running = none) :
      Step s { s.initiate associated with running := some ⟨.wake s.pops,.body,true⟩ }
  | begin (i : ℕ) (t : Task V) (hr : s.running = none) (ht : s.tasks[i]? = some t) :
      Step s { s with tasks := s.tasks.eraseIdx i, running := some ⟨t,.body,false⟩ }
  | wakeBody (p : ℕ) (n : Bool) (hr : s.running = some ⟨.wake p,.body,n⟩) :
      Step s { s with running := some ⟨.wake p,.testing,n⟩ }
  | pushBody (v : V) (n : Bool) (hr : s.running = some ⟨.push v,.body,n⟩) :
      Step s { s with
        queue := { s.queue with values := s.queue.values ++ [some v] }
        running := some ⟨.push v,.testing,n⟩
        log := s.log ++ [.pushed v] }
  | stopBody (n : Bool) (hr : s.running = some ⟨.stop,.body,n⟩) :
      Step s { s with
        queue := { s.queue with ec := some .operationAborted }
        running := some ⟨.stop,.clearing,n⟩
        log := s.log ++ [.stopped] }
  | cleared (t : Task V) (n : Bool) (hr : s.running = some ⟨t,.clearing,n⟩) (hv : s.queue.values = []) :
      Step s { s with running := some ⟨t,.testing,n⟩ }
  | clear (t : Task V) (n : Bool) (v : Option V) (vs : List (Option V))
      (hr : s.running = some ⟨t,.clearing,n⟩) (hv : s.queue.values = v :: vs) :
      Step s { s with queue := { s.queue with values := vs }, log := s.log ++ [.discarded v] }
  | nothing (t : Task V) (n : Bool) (hr : s.running = some ⟨t,.testing,n⟩) (he : s.queue.empty = true) :
      Step s { s with running := none }
  | something (t : Task V) (n : Bool) (hr : s.running = some ⟨t,.testing,n⟩) (he : s.queue.empty = false) :
      Step s { s with running := some ⟨t,.exchanging,n⟩ }
  | wasWaiting (t : Task V) (n : Bool) (hr : s.running = some ⟨t,.exchanging,n⟩)
      (hw : s.queue.state = .waiting) :
      Step s { s with queue := s.queue.exchange, running := some ⟨t,.posting,n⟩ }
  | wasNotWaiting (t : Task V) (n : Bool) (hr : s.running = some ⟨t,.exchanging,n⟩)
      (hw : s.queue.state = .notWaiting) :
      Step s { s with queue := s.queue.exchange, running := none }
  | postError (t : Task V) (n : Bool) (e : Error) (hr : s.running = some ⟨t,.posting,n⟩)
      (he : s.queue.ec = some e) :
      Step s { s with
        queue := s.queue.moveOut
        running := some ⟨t,.clearingEc,n⟩
        posted := s.posted ++ [s.queue.completion]
        log := s.log ++ [.handed s.queue.handler (some e) none] }
  | postValue (t : Task V) (n : Bool) (hr : s.running = some ⟨t,.posting,n⟩) (he : s.queue.ec = none) :
      Step s { s with
        queue := s.queue.moveOut
        running := some ⟨t,.popping,n⟩
        posted := s.posted ++ [s.queue.completion]
        log := s.log ++ [.handed s.queue.handler none s.queue.values.head?.join] }
  | clearEc (t : Task V) (n : Bool) (hr : s.running = some ⟨t,.clearingEc,n⟩) :
      Step s { s with queue := { s.queue with ec := none }, running := none }
  | popFront (t : Task V) (n : Bool) (hr : s.running = some ⟨t,.popping,n⟩) :
      Step s { s with queue := { s.queue with values := s.queue.values.tail }, running := none }
  | invoke (i : ℕ) (c : Completion V) (hc : s.posted[i]? = some c) :
      Step s { s with
        posted := s.posted.eraseIdx i
        awaiting := false
        log := s.log ++ [.invoked c.handler false] }

theorem dispatch_cases {s t : State V} {task : Task V} {onExecutor : Bool}
    (h : s.dispatch task onExecutor = some t) :
    t = { s with tasks := s.tasks ++ [task] } ∨
      (s.running = none ∧ t = { s with running := some ⟨task,.body,true⟩ }) := by
  cases onExecutor with
  | false => exact Or.inl (by simpa [State.dispatch,eq_comm] using h)
  | true =>
    cases hr : s.running with
    | none => exact Or.inr ⟨rfl,by simpa [State.dispatch,hr,eq_comm] using h⟩
    | some r => simp [State.dispatch,hr] at h

theorem begin_cases {s t : State V} {i : ℕ} (h : s.begin i = some t) :
    s.running = none ∧ ∃ task, s.tasks[i]? = some task ∧
      t = { s with tasks := s.tasks.eraseIdx i, running := some ⟨task,.body,false⟩ } := by
  cases hr : s.running with
  | some r => simp [State.begin,hr] at h
  | none =>
    cases ht : s.tasks[i]? with
    | none => simp [State.begin,hr,ht] at h
    | some task => exact ⟨rfl,task,rfl,by simpa [State.begin,hr,ht,eq_comm] using h⟩

theorem advance_cases (s : State V) (r : Running V) (hr : s.running = some r) : Step s (s.advance r) := by
  obtain ⟨task,pc,n⟩ := r
  cases pc with
  | body =>
    cases task with
    | wake p => exact Step.wakeBody p n hr
    | push v => exact Step.pushBody v n hr
    | stop => exact Step.stopBody n hr
  | clearing =>
    cases hv : s.queue.values with
    | nil => simpa [State.advance,hv,State.goto] using Step.cleared task n hr hv
    | cons v vs =>
      have hstep := Step.clear task n v vs hr hv
      simpa [State.advance,hv,State.goto,State.emit,← hr] using hstep
  | testing =>
    cases he : s.queue.empty with
    | true => simpa [State.advance,he,State.finish] using Step.nothing task n hr he
    | false => simpa [State.advance,he,State.goto] using Step.something task n hr he
  | exchanging =>
    cases hw : s.queue.state with
    | waiting => simpa [State.advance,hw,State.goto] using Step.wasWaiting task n hr hw
    | notWaiting => simpa [State.advance,hw,State.finish] using Step.wasNotWaiting task n hr hw
  | posting =>
    cases he : s.queue.ec with
    | some e =>
      simpa [State.advance,he,State.post,State.goto,State.emit,Impl.completion] using Step.postError task n e hr he
    | none =>
      simpa [State.advance,he,State.post,State.goto,State.emit,Impl.completion] using Step.postValue task n hr he
  | clearingEc => exact Step.clearEc task n hr
  | popping => exact Step.popFront task n hr

theorem step_cases {s t : State V} {a : Action V} (h : (machine V).step s a = some t) : Step s t := by
  cases a with
  | push v onExecutor =>
    rcases dispatch_cases h with rfl | ⟨hr,rfl⟩
    · exact Step.call _ (by simp)
    · exact Step.callInline _ (by simp) hr
  | stop onExecutor =>
    rcases dispatch_cases h with rfl | ⟨hr,rfl⟩
    · exact Step.call _ (by simp)
    · exact Step.callInline _ (by simp) hr
  | asyncPop associated onExecutor =>
    cases ha : s.awaiting with
    | true => simp [machine,ha] at h
    | false =>
      simp only [machine,ha,Bool.false_eq_true,if_false] at h
      rcases dispatch_cases h with rfl | ⟨hr,rfl⟩
      · rw [State.initiate_tasks]
        exact Step.pop associated ha
      · rw [State.initiate_running] at hr
        exact Step.popInline associated ha hr
  | begin i =>
    obtain ⟨hr,task,ht,rfl⟩ := begin_cases h
    exact Step.begin i task hr ht
  | advance =>
    obtain ⟨r,hr,rfl⟩ := Option.map_eq_some_iff.mp h
    exact advance_cases s r hr
  | invoke i =>
    obtain ⟨c,hc,rfl⟩ := Option.map_eq_some_iff.mp h
    exact Step.invoke i c hc

theorem reachable_invariant {I : State V → Prop} (hinit : ∀ exec, I (State.init exec))
    (hstep : ∀ s t, I s → Step s t → I t) {s : State V} (h : (machine V).Reachable s) : I s := by
  refine h.invariant ?_ fun s a t hs ha => hstep s t hs (step_cases ha)
  rintro s ⟨exec,rfl⟩
  exact hinit exec

end AsyncQueue
end BeastWebsocketEcho
