import BeastWebsocketEcho.AsyncQueueTasks

/-!
# A queue that was stopped once

`Served` says what the whole of `maybe_complete` can do. Of a queue whose tasks run
without interruption it follows that after a stop no pop succeeds, up to the first pop
that fails: `Halted` is what holds in between.
-/

namespace BeastWebsocketEcho
namespace AsyncQueue

variable {V : Type}

/-- Everything `maybe_complete` can do between its entry and its end. -/
inductive Served (s : State V) : State V → Prop
  | nothing : Served s s
  | error (e : Error) (hw : s.queue.state = .waiting) (he : s.queue.ec = some e) :
      Served s { s with
        queue := { s.queue with state := .notWaiting, handler := none, ec := none }
        posted := s.posted ++ [⟨s.queue.handlerExecutor,s.queue.handler,some e,none⟩]
        log := s.log ++ [.handed s.queue.handler (some e) none] }
  | value (v : Option V) (vs : List (Option V)) (hw : s.queue.state = .waiting) (he : s.queue.ec = none)
      (hv : s.queue.values = v :: vs) :
      Served s { s with
        queue := { s.queue with state := .notWaiting, handler := none, values := vs }
        posted := s.posted ++ [⟨s.queue.handlerExecutor,s.queue.handler,none,v⟩]
        log := s.log ++ [.handed s.queue.handler none v] }

theorem serve_cases (s : State V) : Served s s.serve := by
  cases hw : s.queue.state with
  | notWaiting =>
    have hsame : s.serve = s := by
      have hexchange : s.queue.exchange = s.queue := by simp [Impl.exchange,← hw]
      simp [State.serve,Impl.maybeComplete,hw,hexchange]
    rw [hsame]
    exact Served.nothing
  | waiting =>
    cases he : s.queue.ec with
    | some e =>
      have hstep := Served.error e hw he
      simpa [State.serve,Impl.maybeComplete,Impl.empty,hw,he,Impl.exchange,Impl.moveOut,Impl.remove,
        Impl.completion] using hstep
    | none =>
      cases hv : s.queue.values with
      | nil =>
        have hsame : s.serve = s := by simp [State.serve,Impl.maybeComplete,Impl.empty,he,hv]
        rw [hsame]
        exact Served.nothing
      | cons v vs =>
        have hstep := Served.value v vs hw he hv
        simpa [State.serve,Impl.maybeComplete,Impl.empty,hw,he,hv,Impl.exchange,Impl.moveOut,Impl.remove,
          Impl.completion] using hstep

namespace State

def prepare (s : State V) : Task V → State V
  | .wake _ => s
  | .push v =>
    { s with
      queue := { s.queue with values := s.queue.values ++ [some v] }
      log := s.log ++ [Event.pushed v] }
  | .stop =>
    { s with
      queue := { s.queue with ec := some .operationAborted }.clear
      log := s.log ++ Event.stopped :: s.queue.values.map Event.discarded }

theorem runNow_eq (s : State V) (t : Task V) : s.runNow t = (s.prepare t).serve := by
  cases t <;> rfl

end State

theorem runNow_cases (s : State V) (t : Task V) : Served (s.prepare t) (s.runNow t) := by
  rw [State.runNow_eq]
  exact serve_cases _

theorem Served.frame {s t : State V} (h : Served s t) :
    t.tasks = s.tasks ∧ t.running = s.running ∧ t.awaiting = s.awaiting ∧ t.pops = s.pops := by
  cases h <;> exact ⟨rfl,rfl,rfl,rfl⟩

section Frame

variable (s : State V) (t : Task V) (inline : Bool)

@[simp] theorem runNow_tasks : (s.runNow t).tasks = s.tasks := by
  rw [(runNow_cases s t).frame.1]
  cases t <;> rfl

@[simp] theorem runNow_running : (s.runNow t).running = s.running := by
  rw [(runNow_cases s t).frame.2.1]
  cases t <;> rfl

@[simp] theorem runNow_awaiting : (s.runNow t).awaiting = s.awaiting := by
  rw [(runNow_cases s t).frame.2.2.1]
  cases t <;> rfl

@[simp] theorem call_running : (s.call t inline).running = s.running := by cases inline <;> simp [State.call]
@[simp] theorem call_awaiting : (s.call t inline).awaiting = s.awaiting := by cases inline <;> simp [State.call]
@[simp] theorem pop_running : (s.pop inline).running = s.running := by simp [State.pop]
@[simp] theorem pop_awaiting : (s.pop inline).awaiting = true := by simp [State.pop]

end Frame

@[simp] def Task.push? : Task V → Option V
  | .push v => some v
  | _ => none

theorem pushed_discarded (vs : List (Option V)) : pushed (vs.map Event.discarded) = [] :=
  List.filterMap_eq_nil_iff.mpr fun e he => by
    obtain ⟨v,-,rfl⟩ := List.mem_map.mp he
    rfl

theorem successes_discarded (vs : List (Option V)) : successes (vs.map Event.discarded) = [] :=
  List.filterMap_eq_nil_iff.mpr fun e he => by
    obtain ⟨v,-,rfl⟩ := List.mem_map.mp he
    rfl

theorem taken_discarded (vs : List (Option V)) :
    taken (vs.map Event.discarded) = vs.map fun v => (v,Fate.discarded) := by
  induction vs with
  | nil => rfl
  | cons v vs ih => simp [ih]

theorem Served.pushed_eq {s t : State V} (h : Served s t) : pushed t.log = pushed s.log := by
  cases h <;> simp

theorem runNow_pushed (s : State V) (t : Task V) :
    pushed (s.runNow t).log = pushed s.log ++ t.push?.toList := by
  rw [(runNow_cases s t).pushed_eq]
  cases t <;> simp [State.prepare,pushed_discarded]

def carried (posted : List (Completion V)) : List (Option V) :=
  (posted.filter fun c => c.ec.isNone).map Completion.value

theorem Served.carried_eq {s t : State V} (h : Served s t) :
    ∃ vs, carried t.posted = carried s.posted ++ vs ∧
      (successes t.log).map Prod.snd = (successes s.log).map Prod.snd ++ vs := by
  cases h with
  | nothing => exact ⟨[],by simp,by simp⟩
  | error e hw he => exact ⟨[],by simp [carried],by simp⟩
  | value v vs hw he hv => exact ⟨[v],by simp [carried],by simp⟩

theorem runNow_carried (s : State V) (t : Task V) :
    ∃ vs, carried (s.runNow t).posted = carried s.posted ++ vs ∧
      (successes (s.runNow t).log).map Prod.snd = (successes s.log).map Prod.snd ++ vs := by
  obtain ⟨vs,h₁,h₂⟩ := (runNow_cases s t).carried_eq
  refine ⟨vs,?_,?_⟩
  · rw [h₁]
    cases t <;> rfl
  · rw [h₂]
    cases t <;> simp [State.prepare,successes_discarded]

/-- Nothing that is posted or that succeeded gets lost on the way: `done` is what was taken up before. -/
def Accounted (s : State V) (done : List (Option V)) : Prop :=
  done ++ carried s.posted = (successes s.log).map Prod.snd

theorem Accounted.runNow {s : State V} {done : List (Option V)} (h : Accounted s done) (t : Task V) :
    Accounted (s.runNow t) done := by
  obtain ⟨vs,h₁,h₂⟩ := runNow_carried s t
  rw [Accounted,h₁,h₂,← h,List.append_assoc]

theorem Accounted.call {s : State V} {done : List (Option V)} (h : Accounted s done) (t : Task V)
    (inline : Bool) : Accounted (s.call t inline) done := by
  cases inline with
  | true => exact h.runNow t
  | false => exact h

theorem Accounted.pop {s : State V} {done : List (Option V)} (h : Accounted s done)
    (hidle : s.queue.state = .notWaiting) (inline : Bool) : Accounted (s.pop inline) done := by
  have hstart : Accounted (s.initiate none) done := by
    simpa [Accounted,s.initiate_log none hidle] using h
  exact hstart.call _ inline

theorem Accounted.runTask {s t : State V} {done : List (Option V)} (h : Accounted s done) {i : ℕ}
    (ht : s.runTask i = some t) : Accounted t done := by
  obtain ⟨task,-,rfl⟩ := Option.map_eq_some_iff.mp ht
  exact Accounted.runNow (s := { s with tasks := s.tasks.eraseIdx i }) h task

theorem Accounted.invoke {s : State V} {done : List (Option V)} (hphase : Phase s) (h : Accounted s done)
    {i : ℕ} {c : Completion V} (hc : s.posted[i]? = some c) :
    Accounted { s with
      posted := s.posted.eraseIdx i
      awaiting := false
      log := s.log ++ [Event.invoked c.handler false] } (done ++ carried [c]) := by
  have hone : s.posted = [c] ∧ i = 0 := by
    cases hphase with
    | idle _ _ _ h₄ => simp [h₄] at hc
    | waiting p _ _ _ _ h₅ => simp [h₅] at hc
    | serving p _ _ _ _ h₅ => simp [h₅] at hc
    | posted p d _ _ _ _ h₅ =>
      rw [h₅] at hc
      cases i with
      | zero => exact ⟨by simpa [h₅] using hc,rfl⟩
      | succ i => simp at hc
  obtain ⟨hposted,rfl⟩ := hone
  have hnil : carried ([] : List (Completion V)) = [] := rfl
  simpa [Accounted,hposted,hnil] using h

/-- An error waits for a pop, or is on its way to one. -/
def Faulted (s : State V) : Prop := s.queue.ec.isSome = true ∨ ∃ c ∈ s.posted, c.ec.isSome = true

theorem Served.faulted_iff {s t : State V} (h : Served s t) : Faulted t ↔ Faulted s := by
  cases h with
  | nothing => rfl
  | error e hw he => simp [Faulted,he]
  | value v vs hw he hv => simp [Faulted,he,or_and_right,exists_or]

theorem runNow_faulted (s : State V) (t : Task V) : Faulted (s.runNow t) ↔ Faulted s ∨ t = .stop := by
  rw [(runNow_cases s t).faulted_iff]
  cases t <;> simp [State.prepare,Faulted,Impl.clear]

theorem Served.stopped_iff {s t : State V} (h : Served s t) : .stopped ∈ t.log ↔ .stopped ∈ s.log := by
  cases h <;> simp

theorem runNow_stopped (s : State V) (t : Task V) :
    .stopped ∈ (s.runNow t).log ↔ .stopped ∈ s.log ∨ t = .stop := by
  rw [(runNow_cases s t).stopped_iff]
  cases t <;> simp [State.prepare]

theorem stopped_call {s : State V} (h : .stopped ∈ s.log) (t : Task V) (inline : Bool) :
    .stopped ∈ (s.call t inline).log := by
  cases inline with
  | true => exact (runNow_stopped s t).mpr (Or.inl h)
  | false => exact h

theorem stopped_runTask {s t : State V} {i : ℕ} (ht : s.runTask i = some t) (h : .stopped ∈ s.log) :
    .stopped ∈ t.log := by
  obtain ⟨task,-,rfl⟩ := Option.map_eq_some_iff.mp ht
  exact (runNow_stopped _ task).mpr (Or.inl h)

/-- What left the queue was first delivered and then discarded, the latter only by a stop. -/
def Parted (log : List (Event V)) : Prop :=
  ∃ kept lost, taken log = kept ++ lost ∧ (∀ x ∈ kept, x.2 = Fate.delivered) ∧
    (∀ x ∈ lost, x.2 = Fate.discarded) ∧ (.stopped ∉ log → lost = [])

theorem Parted.congr {l k : List (Event V)} (h : Parted l) (htaken : taken k = taken l)
    (hstop : .stopped ∈ l → .stopped ∈ k) : Parted k := by
  obtain ⟨kept,lost,h₁,h₂,h₃,h₄⟩ := h
  exact ⟨kept,lost,htaken.trans h₁,h₂,h₃,fun hk => h₄ (mt hstop hk)⟩

theorem Served.parted {s t : State V} (h : Served s t) (hs : Parted s.log)
    (hsafe : .stopped ∈ s.log → s.queue.state = .waiting → s.queue.ec.isSome = true) : Parted t.log := by
  cases h with
  | nothing => exact hs
  | error e hw he => exact hs.congr (by simp) (by simp)
  | value v vs hw he hv =>
    -- There is no error, so no stop has run and nothing was lost.
    have hstop : .stopped ∉ s.log := by
      intro hmem
      simpa [he] using hsafe hmem hw
    obtain ⟨kept,lost,h₁,h₂,-,h₄⟩ := hs
    refine ⟨kept ++ [(v,.delivered)],[],by simp [h₁,h₄ hstop],?_,by simp,by simp⟩
    intro x hx
    rcases List.mem_append.mp hx with hx | hx
    · exact h₂ x hx
    · rw [List.mem_singleton.mp hx]

theorem runNow_parted {s : State V} (t : Task V) (hs : Parted s.log)
    (hsafe : .stopped ∈ s.log → s.queue.state = .waiting → s.queue.ec.isSome = true) :
    Parted (s.runNow t).log := by
  refine (runNow_cases s t).parted ?_ ?_
  · cases t with
    | wake p => exact hs
    | push v => exact hs.congr (by simp [State.prepare]) (by simp [State.prepare])
    | stop =>
      obtain ⟨kept,lost,h₁,h₂,h₃,-⟩ := hs
      refine ⟨kept,lost ++ s.queue.values.map fun v => (v,.discarded),?_,h₂,?_,by simp [State.prepare]⟩
      · simp [State.prepare,taken_discarded,h₁]
      · intro x hx
        rcases List.mem_append.mp hx with hx | hx
        · exact h₃ x hx
        · obtain ⟨v,-,rfl⟩ := List.mem_map.mp hx
          rfl
  · cases t with
    | wake p => exact hsafe
    | push v => simpa [State.prepare] using hsafe
    | stop => exact fun _ _ => rfl

/-- What holds of a queue whose consumer gives up with its first error: `gone` tells that it has. -/
structure Halt (s : State V) (gone : Prop) : Prop where
  faulted : Faulted s → .stopped ∈ s.log
  halted : .stopped ∈ s.log → Faulted s ∨ gone
  parted : Parted s.log

theorem Halt.mono {s : State V} {gone later : Prop} (h : Halt s gone) (himp : gone → later) : Halt s later :=
  ⟨h.faulted,fun hs => (h.halted hs).imp_right himp,h.parted⟩

/-- After a stop a waiting pop can only be aborted. -/
theorem Halt.safe {s : State V} {gone : Prop} (h : Halt s gone) (hphase : Phase s)
    (hgone : gone → s.awaiting = false) :
    .stopped ∈ s.log → s.queue.state = .waiting → s.queue.ec.isSome = true := by
  intro hstop hw
  cases hphase with
  | idle _ h₂ => simp [h₂] at hw
  | serving p _ _ h₃ => simp [h₃] at hw
  | posted p c _ _ h₃ => simp [h₃] at hw
  | waiting p _ h₂ _ _ h₅ =>
    rcases h.halted hstop with (hec | ⟨c,hc,-⟩) | hg
    · exact hec
    · simp [h₅] at hc
    · simp [h₂] at hgone
      exact absurd hg hgone

theorem Halt.runNow {s : State V} {gone : Prop} (h : Halt s gone) (hphase : Phase s)
    (hgone : gone → s.awaiting = false) (t : Task V) : Halt (s.runNow t) gone := by
  refine ⟨?_,?_,runNow_parted t h.parted (h.safe hphase hgone)⟩
  · rw [runNow_faulted,runNow_stopped]
    exact Or.imp_left h.faulted
  · rw [runNow_faulted,runNow_stopped]
    rintro (hs | ht)
    · exact (h.halted hs).imp_left Or.inl
    · exact Or.inl (Or.inr ht)

theorem Halt.call {s : State V} {gone : Prop} (h : Halt s gone) (hphase : Phase s)
    (hgone : gone → s.awaiting = false) (t : Task V) (inline : Bool) : Halt (s.call t inline) gone := by
  cases inline with
  | true => exact h.runNow hphase hgone t
  | false => exact ⟨h.faulted,h.halted,h.parted⟩

theorem initiate_phase {s : State V} (hphase : Phase s) (ha : s.awaiting = false) (hr : s.running = none) :
    Phase (s.initiate none) :=
  hphase.of_initiate ha (by simp [State.pc,hr]) (s.initiate_posted none) rfl

theorem Halt.pop {s : State V} (h : Halt s False) (hphase : Phase s) (ha : s.awaiting = false)
    (hr : s.running = none) (inline : Bool) : Halt (s.pop inline) False := by
  have hlog := s.initiate_log none (hphase.idle_of_awaiting ha).1
  have hstart : Halt (s.initiate none) False := by
    refine ⟨?_,?_,?_⟩
    · simpa [Faulted,Impl.asyncPop,hlog] using h.faulted
    · simpa [Faulted,Impl.asyncPop,hlog] using h.halted
    · rw [hlog]
      exact h.parted.congr (by simp) (by simp)
  exact hstart.call (initiate_phase hphase ha hr) False.elim (.wake s.pops) inline

theorem Halt.runTask {s t : State V} {gone : Prop} (h : Halt s gone) (hphase : Phase s)
    (hgone : gone → s.awaiting = false) {i : ℕ} (ht : s.runTask i = some t) : Halt t gone := by
  obtain ⟨task,-,rfl⟩ := Option.map_eq_some_iff.mp ht
  have hsame : Halt { s with tasks := s.tasks.eraseIdx i } gone := ⟨h.faulted,h.halted,h.parted⟩
  exact hsame.runNow (hphase.frame Iff.rfl rfl rfl) hgone task

/-- The consumer that is given an error is gone; a value leaves everything as it is. -/
theorem Halt.invoke {s : State V} (h : Halt s False) {i : ℕ} {c : Completion V} (hc : s.posted[i]? = some c) :
    Halt { s with
      posted := s.posted.eraseIdx i
      awaiting := false
      log := s.log ++ [Event.invoked c.handler false] } (c.ec.isSome = true) := by
  refine ⟨?_,?_,h.parted.congr (by simp) (by simp)⟩
  · rintro (hec | ⟨d,hd,he⟩)
    · simpa using h.faulted (Or.inl hec)
    · simpa using h.faulted (Or.inr ⟨d,List.mem_of_mem_eraseIdx hd,he⟩)
  · intro hs
    rcases h.halted (by simpa using hs) with (hec | ⟨d,hd,he⟩) | hno
    · exact Or.inl (Or.inl hec)
    · rcases mem_eraseIdx_or_eq hd hc with rfl | hrest
      · exact Or.inr he
      · exact Or.inl (Or.inr ⟨d,hrest,he⟩)
    · exact absurd hno id

def Due (s : State V) : Prop := .stop ∈ s.tasks ∨ .stopped ∈ s.log

theorem due_call (s : State V) (t : Task V) (inline : Bool) : Due (s.call t inline) ↔ Due s ∨ t = .stop := by
  cases inline with
  | true =>
    rw [State.call,if_pos rfl,Due,runNow_stopped,runNow_tasks,← or_assoc]
    rfl
  | false => simp [State.call,Due,or_right_comm,eq_comm]

theorem due_runTask {s t : State V} {i : ℕ} (ht : s.runTask i = some t) : Due t ↔ Due s := by
  obtain ⟨task,htask,rfl⟩ := Option.map_eq_some_iff.mp ht
  rw [Due,runNow_stopped,runNow_tasks]
  constructor
  · rintro (hmem | hs | rfl)
    · exact Or.inl (List.mem_of_mem_eraseIdx hmem)
    · exact Or.inr hs
    · exact Or.inl (List.mem_of_getElem? htask)
  · rintro (hmem | hs)
    · rcases mem_eraseIdx_or_eq hmem htask with rfl | hrest
      · exact Or.inr (Or.inr rfl)
      · exact Or.inl hrest
    · exact Or.inr (Or.inl hs)

theorem due_pop {s : State V} (hphase : Phase s) (ha : s.awaiting = false) (inline : Bool) :
    Due (s.pop inline) ↔ Due s := by
  rw [State.pop,due_call]
  simp [Due,s.initiate_log none (hphase.idle_of_awaiting ha).1]

/-- As long as nothing is delivered after something was discarded, what is delivered is a prefix of
what was pushed. -/
theorem Parted.successes_prefix {s : State V} (h : Parted s.log) (hr : (machine V).Reachable s) :
    (successes s.log).map Prod.snd <+: (pushed s.log).map some := by
  obtain ⟨l,hl⟩ := reachable_books hr
  obtain ⟨kept,lost,htaken,hkept,hlost,-⟩ := h
  have hprefix := l.filter_prefix (fun x => x == Fate.delivered) kept lost (hl.left.trans htaken)
    (fun x hx => by simp [hkept x hx]) (fun x hx => by simp [hlost x hx])
  rw [hl.left,hl.entered] at hprefix
  rw [successes_values]
  exact hprefix

/-- The values pushed, followed by those whose push task is still to run. -/
def lined (s : State V) : List V := pushed s.log ++ s.tasks.filterMap Task.push?

/-- A task that is dispatched, and runs at once only if no other one waits, keeps the line. -/
theorem lined_call (s : State V) (t : Task V) {inline : Bool} (hfifo : inline = true → s.tasks = []) :
    lined (s.call t inline) = lined s ++ t.push?.toList := by
  cases inline with
  | true => simp [State.call,lined,runNow_pushed,hfifo rfl]
  | false => simp [State.call,lined,filterMap_cons_toList]

theorem lined_pop {s : State V} {inline : Bool} (hidle : s.queue.state = .notWaiting)
    (hfifo : inline = true → s.tasks = []) : lined (s.pop inline) = lined s := by
  rw [State.pop,lined_call _ _ (by simpa using hfifo)]
  simp [lined,s.initiate_log none hidle]

theorem lined_runTask {s t : State V} (ht : s.runTask 0 = some t) : lined t = lined s := by
  obtain ⟨task,htask,rfl⟩ := Option.map_eq_some_iff.mp ht
  obtain ⟨rest,hrest⟩ : ∃ rest, s.tasks = task :: rest := by
    cases hs : s.tasks with
    | nil => simp [hs] at htask
    | cons x rest => exact ⟨rest,by simpa [hs] using htask⟩
  simp [lined,runNow_pushed,hrest,filterMap_cons_toList]

end AsyncQueue
end BeastWebsocketEcho
