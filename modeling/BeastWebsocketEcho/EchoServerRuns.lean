import BeastWebsocketEcho.EchoServer
import BeastWebsocketEcho.Chronicle

/-!
# Runs of the echo server

A connection that is alive is in the cache or was stopped, as long as no connection takes the
place of a living one in the cache. So `handle_stop`, which stops what it finds there, leaves
no living connection out.
-/

namespace BeastWebsocketEcho

namespace EchoConnection

theorem alive_of_step {c d : State} {a : Action} (ha : EchoServer.isCall a = false)
    (h : step c a = some d) : c.alive = true := by
  cases hc : c.alive with
  | true => rfl
  | false =>
    simp only [State.alive,Bool.not_eq_false',Bool.and_eq_true,List.isEmpty_iff] at hc
    obtain ⟨⟨⟨⟨⟨htasks,haccepts⟩,hreads⟩,hwrites⟩,hwaits⟩,hcloses⟩ := hc
    cases a with
    | send msg => simp [EchoServer.isCall] at ha
    | stop => simp [EchoServer.isCall] at ha
    | _ => simp [step,result,htasks,haccepts,hreads,hwrites,hwaits,hcloses] at h

/-- A task that runs at once might as well have waited and run then. -/
theorem step_runTask_last (c : State) (task : Task) :
    step { c with tasks := c.tasks ++ [task] } (.runTask c.tasks.length) = some (c.runTask task) := by
  have herase : (c.tasks ++ [task]).eraseIdx c.tasks.length = c.tasks := by
    rw [List.eraseIdx_append_of_length_le (le_refl _)]
    simp
  simp [step,herase]

theorem reachable_runTask {c : State} {task : Task} (h : machine.Reachable { c with tasks := c.tasks ++ [task] }) :
    machine.Reachable (c.runTask task) :=
  h.step (a := .runTask c.tasks.length) (step_runTask_last c task)

theorem reachable_stop {c : State} (h : machine.Reachable c) (inl : Bool) : machine.Reachable (c.stop inl) := by
  have hwaits : machine.Reachable { c with tasks := c.tasks ++ [Task.handleStop] } :=
    h.step (m := machine) (a := .stop) rfl
  cases inl with
  | true => exact reachable_runTask hwaits
  | false => exact hwaits

theorem reachable_dispatchSend {c : State} (h : machine.Reachable c) (msg : String) (inl : Bool) :
    machine.Reachable (c.dispatchSend msg inl) := by
  have hwaits : machine.Reachable { c with tasks := c.tasks ++ [Task.handleSend msg] } :=
    h.step (m := machine) (a := .send msg) rfl
  cases inl with
  | true => exact reachable_runTask hwaits
  | false => exact hwaits

theorem reachable_run (inl : Bool) : machine.Reachable (State.constructed.run inl) := by
  have hwaits : machine.Reachable State.init := Machine.Reachable.init rfl
  cases inl with
  | true => exact reachable_runTask (c := State.constructed) hwaits
  | false => exact hwaits

end EchoConnection

namespace EchoServer

open ChatServer (Endpoint AcceptResult assign)

def Stopped (log : List Event) : Prop :=
  ∃ before alive after, log = before ++ .handledStop alive :: after ∧ .run ∉ after

theorem stopped_snoc_iff {log : List Event} {e : Event} :
    Stopped (log ++ [e]) ↔ (∃ alive, e = .handledStop alive) ∨ e ≠ .run ∧ Stopped log := by
  constructor
  · rintro ⟨before,alive,after,h,hrun⟩
    rcases Chronicle.split_snoc h with ⟨rfl,rfl,rfl⟩ | ⟨init,rfl,rfl⟩
    · exact Or.inl ⟨alive,rfl⟩
    · simp only [List.mem_append,List.mem_singleton,not_or] at hrun
      exact Or.inr ⟨Ne.symm hrun.2,before,alive,init,rfl,hrun.1⟩
  · rintro (⟨alive,rfl⟩ | ⟨hne,before,alive,after,rfl,hrun⟩)
    · exact ⟨log,alive,[],rfl,by simp⟩
    · exact ⟨before,alive,after ++ [e],by simp,by simp [hrun,hne.symm]⟩

/-- What the log says of an event together with the events before it: at the end of `handle_stop`
every living connection has been stopped, and none starts before `run` is called again. -/
structure Lawful (before : List Event) (e : Event) : Prop where
  reached : ∀ alive, e = .handledStop alive → ∀ i ∈ alive, .stopped i ∈ before
  barred : ∀ i, e = .started i → ¬ Stopped before

theorem Lawful.of_ne {before : List Event} {e : Event} (hstop : ∀ alive, e ≠ .handledStop alive)
    (hstart : ∀ i, e ≠ .started i) : Lawful before e :=
  ⟨fun alive h => absurd h (hstop alive),fun i h => absurd h (hstart i)⟩

section Cache

variable {cache : List (Endpoint × ℕ)} {ep : Endpoint} {i : ℕ}

theorem mem_assign_self : (ep,i) ∈ assign cache ep i := by
  unfold assign
  split
  · next h =>
    obtain ⟨x,hx,hep⟩ := List.any_eq_true.mp h
    exact List.mem_map.mpr ⟨x,hx,by simp [beq_iff_eq.mp hep]⟩
  · simp

theorem mem_assign_of_ne {x : Endpoint × ℕ} (hx : x ∈ cache) (hne : x.1 ≠ ep) : x ∈ assign cache ep i := by
  unfold assign
  split
  · exact List.mem_map.mpr ⟨x,hx,by simp [hne]⟩
  · exact List.mem_append_left _ hx

end Cache

section StopAll

variable {s : State} {j : ℕ} {i : ℕ} {inl : Bool} {cache : List (Endpoint × ℕ)}

theorem alive_of_stopOne (h : (s.stopOne i inl).alive j = true) : s.alive j = true := by
  by_cases hi : s.alive i = true
  · by_cases hij : i = j
    · exact hij ▸ hi
    · rw [State.stopOne,if_pos hi] at h
      simpa [State.alive,State.emit,List.getElem?_modify,hij] using h
  · simpa [State.stopOne,hi] using h

theorem stopOne_log (s : State) (i : ℕ) (inl : Bool) :
    ∃ k, (s.stopOne i inl).log = s.log ++ k ∧ ∀ e ∈ k, ∃ j, e = .stopped j := by
  by_cases hi : s.alive i = true
  · exact ⟨[.stopped i],by simp [State.stopOne,hi,State.emit],by simp⟩
  · exact ⟨[],by simp [State.stopOne,hi],by simp⟩

theorem stopped_stopOne (h : s.alive i = true) : .stopped i ∈ (s.stopOne i inl).log := by
  simp [State.stopOne,h,State.emit]

theorem stopOne_same : ((s.stopOne i inl).ec,(s.stopOne i inl).tasks) = (s.ec,s.tasks) := by
  by_cases hi : s.alive i = true
  · simp [State.stopOne,hi,State.emit]
  · simp [State.stopOne,hi]

theorem alive_of_stopAll (h : (s.stopAll cache inl).alive j = true) : s.alive j = true := by
  induction cache generalizing s with
  | nil => exact h
  | cons x cache ih => exact alive_of_stopOne (ih h)

theorem stopAll_log (s : State) (cache : List (Endpoint × ℕ)) (inl : Bool) :
    ∃ k, (s.stopAll cache inl).log = s.log ++ k ∧ ∀ e ∈ k, ∃ j, e = .stopped j := by
  induction cache generalizing s with
  | nil => exact ⟨[],by simp [State.stopAll],by simp⟩
  | cons x cache ih =>
    obtain ⟨k,hk,hstops⟩ := stopOne_log s x.2 inl
    obtain ⟨l,hl,hstops'⟩ := ih (s := s.stopOne x.2 inl)
    refine ⟨k ++ l,by rw [← List.append_assoc,← hk]; exact hl,fun e he => ?_⟩
    rcases List.mem_append.mp he with he | he
    · exact hstops e he
    · exact hstops' e he

theorem stopAll_same (s : State) (cache : List (Endpoint × ℕ)) (inl : Bool) :
    ((s.stopAll cache inl).ec,(s.stopAll cache inl).tasks) = (s.ec,s.tasks) := by
  induction cache generalizing s with
  | nil => rfl
  | cons x cache ih => exact (ih _).trans stopOne_same

/-- The loop stops every connection of the cache that is alive. -/
theorem stopped_stopAll {x : Endpoint × ℕ} (hx : x ∈ cache) (h : (s.stopAll cache inl).alive x.2 = true) :
    .stopped x.2 ∈ (s.stopAll cache inl).log := by
  induction cache generalizing s with
  | nil => simp at hx
  | cons y cache ih =>
    rcases List.mem_cons.mp hx with rfl | hx
    · have halive : s.alive x.2 = true := alive_of_stopOne (alive_of_stopAll h)
      obtain ⟨k,hk,-⟩ := stopAll_log (s.stopOne x.2 inl) cache inl
      have hlog : (s.stopAll (x :: cache) inl).log = (s.stopOne x.2 inl).log ++ k := hk
      rw [hlog]
      exact List.mem_append_left _ (stopped_stopOne halive)
    · exact ih hx h

end StopAll

/-- No connection takes the place of a living one in the cache. -/
def unshadowed (s : State) : Action → Bool
  | .accepted i _ =>
    match s.ec, EchoConnection.result s.accepts i with
    | none, some (.ok (.ok ep)) => s.connections.all fun x => x.1 != ep || !s.alive x.2
    | _, _ => true
  | _ => true

/-- No stop is handled while a `handle_run` that was dispatched before waits to run. -/
def uncrossed (s : State) : Action → Bool
  | .stop onExecutor _ => !(onExecutor && s.tasks.contains .handleRun)
  | .runTask i _ => !(s.tasks[i]? == some .handleStop && s.tasks.contains .handleRun)
  | _ => true

def orderly (s : State) (a : Action) : Bool := unshadowed s a && uncrossed s a

structure Tracked (s : State) : Prop where
  cached : ∀ i, s.alive i = true → .stopped i ∈ s.log ∨ ∃ ep, (ep,i) ∈ s.connections
  ec : Stopped s.log → s.ec.isSome = true
  tasks : Stopped s.log → .handleRun ∉ s.tasks
  order : Chronicle Lawful s.log

theorem Tracked.frame {s t : State} (h : Tracked s) (halive : ∀ i, t.alive i = true → s.alive i = true)
    (htasks : ∀ task ∈ t.tasks, task ∈ s.tasks)
    (hsame : (t.ec,t.connections,t.log) = (s.ec,s.connections,s.log)) : Tracked t := by
  simp only [Prod.mk.injEq] at hsame
  obtain ⟨hec,hconnections,hlog⟩ := hsame
  refine ⟨?_,?_,?_,?_⟩
  · intro i hi
    rw [hlog,hconnections]
    exact h.cached i (halive i hi)
  · rw [hlog,hec]
    exact h.ec
  · intro hstopped hmem
    rw [hlog] at hstopped
    exact h.tasks hstopped (htasks _ hmem)
  · rw [hlog]
    exact h.order

theorem Tracked.emit {s : State} {e : Event} (h : Tracked s) (hstop : ∀ alive, e ≠ .handledStop alive)
    (hstart : ∀ i, e ≠ .started i) : Tracked (s.emit e) := by
  have hstopped : Stopped (s.log ++ [e]) → Stopped s.log := by
    intro hst
    rcases stopped_snoc_iff.mp hst with ⟨alive,he⟩ | ⟨-,hst⟩
    · exact absurd he (hstop alive)
    · exact hst
  refine ⟨?_,?_,?_,?_⟩
  · intro i hi
    rcases h.cached i hi with hlog | hcached
    · exact Or.inl (List.mem_append_left _ hlog)
    · exact Or.inr hcached
  · exact fun hst => h.ec (hstopped hst)
  · exact fun hst => h.tasks (hstopped hst)
  · exact h.order.snoc (Lawful.of_ne hstop hstart)

theorem tracked_initiateAccept {s : State} (h : Tracked s) : Tracked s.initiateAccept :=
  h.frame (fun _ hi => hi) (fun _ ht => ht) rfl

theorem tracked_handleRun {s : State} (h : Tracked s) (hrun : ¬ Stopped s.log) : Tracked s.handleRun :=
  ⟨h.cached,fun hst => absurd hst hrun,h.tasks,h.order⟩

theorem tracked_startConnection {s : State} (h : Tracked s) (hec : s.ec = none) {ep : Endpoint} {inl : Bool}
    (hfresh : ∀ x ∈ s.connections, x.1 = ep → s.alive x.2 = false) : Tracked (s.startConnection ep inl) := by
  have hrun : ¬ Stopped s.log := by
    intro hst
    simpa [hec] using h.ec hst
  have hrun' : ¬ Stopped (s.log ++ [Event.started s.conns.length]) := by
    intro hst
    rcases stopped_snoc_iff.mp hst with ⟨alive,he⟩ | ⟨-,hst⟩
    · simp at he
    · exact hrun hst
  refine ⟨?_,fun hst => absurd hst hrun',fun hst => absurd hst hrun',?_⟩
  · intro i hi
    by_cases hnew : i = s.conns.length
    · subst hnew
      exact Or.inr ⟨ep,mem_assign_self⟩
    · have halive : s.alive i = true := by
        simp only [State.alive,State.startConnection,State.emit] at hi ⊢
        by_cases hlt : i < s.conns.length
        · rwa [List.getElem?_append_left hlt] at hi
        · rw [List.getElem?_eq_none (by simp; omega)] at hi
          simp at hi
      rcases h.cached i halive with hlog | ⟨ep',hcached⟩
      · exact Or.inl (List.mem_append_left _ hlog)
      · have hne : ep' ≠ ep := by
          intro heq
          simpa [halive] using hfresh _ hcached heq
        exact Or.inr ⟨ep',mem_assign_of_ne hcached hne⟩
  · refine h.order.snoc ⟨?_,?_⟩
    · intro alive he
      simp at he
    · exact fun _ _ => hrun

/-- What `handle_accept` makes of an accept. -/
inductive Accepted (s : State) (inl : Bool) : AcceptResult → State → Prop
  | abandoned (result : AcceptResult) (hec : s.ec.isSome = true) : Accepted s inl result s
  | again (hec : s.ec = none) : Accepted s inl (.error .connectionAborted) s.initiateAccept
  | failed (e : Error) (hec : s.ec = none) (he : e ≠ .connectionAborted) : Accepted s inl (.error e) s
  | threw (e : Error) (hec : s.ec = none) : Accepted s inl (.ok (.error e)) (s.initiateAccept.emit (.threw e))
  | served (ep : Endpoint) (hec : s.ec = none) :
      Accepted s inl (.ok (.ok ep)) (s.initiateAccept.startConnection ep inl)

theorem handleAccept_cases (s : State) (result : AcceptResult) (inl : Bool) :
    Accepted s inl result (s.handleAccept result inl) := by
  unfold State.handleAccept
  split
  · next hec => exact Accepted.abandoned result hec
  · next hnot =>
    have hec : s.ec = none := by simpa using hnot
    split
    · exact Accepted.again hec
    · exact Accepted.failed _ hec (by simp)
    · next e he _ => exact Accepted.failed e hec fun heq => he (heq ▸ rfl)
    · exact Accepted.threw _ hec
    · exact Accepted.served _ hec

theorem tracked_handleAccept {s : State} (h : Tracked s) {result : AcceptResult} {inl : Bool}
    (hfresh : ∀ ep, result = .ok (.ok ep) → s.ec = none → ∀ x ∈ s.connections, x.1 = ep → s.alive x.2 = false) :
    Tracked (s.handleAccept result inl) := by
  have haccepted := handleAccept_cases s result inl
  generalize s.handleAccept result inl = t at haccepted ⊢
  cases haccepted with
  | abandoned _ hec => exact h
  | again hec => exact tracked_initiateAccept h
  | failed e hec he => exact h
  | threw e hec => exact (tracked_initiateAccept h).emit (by simp) (by simp)
  | served ep hec =>
    exact tracked_startConnection (s := s.initiateAccept) (tracked_initiateAccept h) hec (hfresh ep rfl hec)

/-- The end of `handle_stop`: who is alive was in the cache and is stopped now, or was stopped before. -/
theorem tracked_handleStop {s : State} (h : Tracked s) (htasks : .handleRun ∉ s.tasks) (inl : Bool) :
    Tracked (s.handleStop inl) := by
  set s' : State := { s with ec := some .operationAborted, accepts := s.accepts.map Status.cancel } with hs'
  set u : State := s'.stopAll s.connections inl with hu
  obtain ⟨k,hlog,hstops⟩ := stopAll_log s' s.connections inl
  have hsame := stopAll_same s' s.connections inl
  simp only [Prod.mk.injEq] at hsame
  have hstopped : ∀ i, u.alive i = true → .stopped i ∈ u.log := by
    intro i hi
    rcases h.cached i (alive_of_stopAll (s := s') hi) with hbefore | ⟨ep,hcached⟩
    · rw [hu,hlog]
      exact List.mem_append_left _ hbefore
    · exact stopped_stopAll hcached hi
  refine ⟨?_,?_,?_,?_⟩
  · exact fun i hi => Or.inl (List.mem_append_left _ (hstopped i hi))
  · intro _
    have hec : (s.handleStop inl).ec = u.ec := rfl
    rw [hec,hsame.1]
    rfl
  · intro _
    have htasks' : (s.handleStop inl).tasks = u.tasks := rfl
    rw [htasks',hsame.2]
    exact htasks
  · have horder : Chronicle Lawful u.log := by
      rw [hu,hlog]
      refine append_induction h.order k fun l e he hl => hl.snoc ?_
      obtain ⟨j,rfl⟩ := hstops e he
      exact Lawful.of_ne (by simp) (by simp)
    refine horder.snoc ⟨?_,by simp⟩
    rintro alive he i hi
    obtain rfl : alive = u.living := by simpa using he.symm
    exact hstopped i (List.mem_filter.mp hi).2

theorem not_stopped_run (log : List Event) : ¬ Stopped (log ++ [Event.run]) := by
  intro hst
  rcases stopped_snoc_iff.mp hst with ⟨alive,he⟩ | ⟨hne,-⟩
  · simp at he
  · exact hne rfl

theorem tracked_step {s t : State} {a : Action} (h : Tracked s) (hok : orderly s a = true)
    (hstep : step s a = some t) : Tracked t := by
  simp only [orderly,Bool.and_eq_true] at hok
  obtain ⟨hfresh,hcross⟩ := hok
  cases a with
  | run onExecutor =>
    obtain rfl := Option.some.inj hstep
    have hrun : ¬ Stopped (s.emit .run).log := not_stopped_run s.log
    have hemit : Tracked (s.emit .run) := h.emit (by simp) (by simp)
    cases onExecutor with
    | true => exact tracked_handleRun hemit hrun
    | false => exact ⟨hemit.cached,hemit.ec,fun hst => absurd hst hrun,hemit.order⟩
  | stop onExecutor inl =>
    obtain rfl := Option.some.inj hstep
    cases onExecutor with
    | true => exact tracked_handleStop h (by simpa [uncrossed] using hcross) inl
    | false =>
      refine ⟨h.cached,h.ec,fun hst hmem => ?_,h.order⟩
      rcases List.mem_append.mp hmem with hmem | hmem
      · exact h.tasks hst hmem
      · simp at hmem
  | runTask i inl =>
    obtain ⟨task,hi,rfl⟩ := Option.map_eq_some_iff.mp hstep
    have hrest : Tracked { s with tasks := s.tasks.eraseIdx i } :=
      h.frame (fun _ hj => hj) (fun _ => List.mem_of_mem_eraseIdx) rfl
    cases task with
    | handleRun =>
      refine tracked_handleRun hrest fun hst => ?_
      exact h.tasks hst (List.mem_of_getElem? hi)
    | handleStop =>
      have htasks : .handleRun ∉ s.tasks := by simpa [uncrossed,hi] using hcross
      exact tracked_handleStop hrest (fun hmem => htasks (List.mem_of_mem_eraseIdx hmem)) inl
  | acceptCompletes i result =>
    obtain ⟨st,-,rfl⟩ := Option.map_eq_some_iff.mp hstep
    exact h.frame (fun _ hj => hj) (fun _ ht => ht) rfl
  | accepted i inl =>
    obtain ⟨result,hi,rfl⟩ := Option.map_eq_some_iff.mp hstep
    have hrest : Tracked { s with accepts := s.accepts.eraseIdx i } :=
      h.frame (fun _ hj => hj) (fun _ ht => ht) rfl
    refine tracked_handleAccept hrest ?_
    rintro ep rfl hec x hx rfl
    simp only [unshadowed,show s.ec = none from hec,hi,List.all_eq_true] at hfresh
    have hdead := hfresh x hx
    rw [bne_self_eq_false,Bool.false_or,Bool.not_eq_true'] at hdead
    exact hdead
  | connection i b =>
    simp only [step] at hstep
    split at hstep
    · exact absurd hstep (by simp)
    · next hcall =>
      obtain ⟨c,hc,hmap⟩ := Option.bind_eq_some_iff.mp hstep
      obtain ⟨d,hd,rfl⟩ := Option.map_eq_some_iff.mp hmap
      refine h.frame (fun j hj => ?_) (fun _ ht => ht) rfl
      by_cases hij : i = j
      · subst hij
        have halive : c.alive = true := EchoConnection.alive_of_step (by simpa using hcall) hd
        simp [State.alive,hc,halive]
      · simpa [State.alive,List.getElem?_set,hij] using hj

/-- At the end of every `handle_stop` all living connections have been stopped, and none starts
before `run` is called again: in every run in which no connection takes the place of a living one
in the cache, and no stop is handled while an earlier `handle_run` waits to run. -/
theorem stop_reaches_every_connection {s : State} (h : (machine.restrict orderly).Reachable s) :
    Chronicle Lawful s.log := by
  have htracked : Tracked s := by
    refine h.invariant ?_ ?_
    · rintro s rfl
      exact ⟨by simp [State.init,State.alive],by simp [State.init,Stopped],by simp [State.init],Chronicle.nil⟩
    · intro s a t hs ha
      obtain ⟨hok,hstep⟩ := Machine.restrict_step_iff.mp ha
      exact tracked_step hs hok hstep
  exact htracked.order

def visitor (port : ℕ) : Endpoint := ⟨"192.0.2.1",port⟩

def stopTwo : List Action :=
  [.run true,.acceptCompletes 0 (.ok (.ok (visitor 50000))),.accepted 0 true,
    .acceptCompletes 0 (.ok (.ok (visitor 50001))),.accepted 0 true,
    .acceptCompletes 0 (.ok (.ok (visitor 50002))),.stop true true,.accepted 0 true]

theorem stop_reaches_every_connection_stopTwo :
    ∃ s, (machine.restrict orderly).replay State.init stopTwo = some s ∧
      s.log = [.run,.started 0,.started 1,.stopped 0,.stopped 1,.handledStop [0,1]] ∧ Chronicle Lawful s.log := by
  have hrun : (machine.restrict orderly).replay State.init stopTwo = some _ := rfl
  exact ⟨_,hrun,rfl,stop_reaches_every_connection (Machine.Reachable.of_replay rfl hrun)⟩

/-- The client goes away before the handshake, the timer keeps its connection alive, and the client
comes back from the same port. -/
def reconnect : List Action :=
  [.run true,.acceptCompletes 0 (.ok (.ok (visitor 50000))),.accepted 0 true,
    .connection 0 (.acceptCompletes 0 (some (.other 1))),.connection 0 (.accepted 0),
    .acceptCompletes 0 (.ok (.ok (visitor 50000))),.accepted 0 true,.stop true true]

theorem reconnected_is_not_stopped : ¬ ∀ s, machine.Reachable s → Chronicle Lawful s.log := by
  intro h
  have hrun : machine.replay State.init reconnect = some _ := rfl
  have hlaw := h _ (Machine.Reachable.of_replay rfl hrun)
  have hlast := hlaw [.run,.started 0,.started 1,.stopped 1] (.handledStop [0,1]) [] rfl
  have hmem := hlast.reached [0,1] rfl 0 (by simp)
  simp at hmem

theorem welcome_reachable (visitors : ℕ) (ep : Endpoint) (inl : Bool) :
    EchoConnection.machine.Reachable (welcome visitors ep inl) := by
  have hrun := EchoConnection.reachable_run inl
  unfold welcome
  generalize ChatServer.greetings visitors ep = messages
  generalize EchoConnection.State.constructed.run inl = c at *
  induction messages generalizing c with
  | nil => exact hrun
  | cons msg messages ih => exact ih _ (EchoConnection.reachable_dispatchSend hrun msg inl)

section Connections

variable {s : State} {inl : Bool}

/-- Every connection of the server is in a state that its own machine reaches. -/
def Sound (s : State) : Prop :=
  ∀ (i : ℕ) (c : EchoConnection.State), s.conns[i]? = some c → EchoConnection.machine.Reachable c

theorem sound_stopOne (h : Sound s) (i : ℕ) : Sound (s.stopOne i inl) := by
  by_cases hi : s.alive i = true
  · rw [State.stopOne,if_pos hi]
    intro j c hc
    simp only [State.emit,List.getElem?_modify] at hc
    obtain ⟨d,hd,rfl⟩ := Option.map_eq_some_iff.mp hc
    by_cases hij : i = j
    · simpa [hij] using EchoConnection.reachable_stop (h j d hd) inl
    · simpa [hij] using h j d hd
  · rwa [State.stopOne,if_neg hi]

theorem sound_stopAll {cache : List (Endpoint × ℕ)} (h : Sound s) : Sound (s.stopAll cache inl) := by
  induction cache generalizing s with
  | nil => exact h
  | cons x cache ih => exact ih (sound_stopOne h x.2)

theorem sound_handleAccept (h : Sound s) (result : AcceptResult) : Sound (s.handleAccept result inl) := by
  have haccepted := handleAccept_cases s result inl
  generalize s.handleAccept result inl = t at haccepted ⊢
  cases haccepted with
  | abandoned _ hec => exact h
  | again hec => exact h
  | failed e hec he => exact h
  | threw e hec => exact h
  | served ep hec =>
    intro i c hc
    change (s.conns ++ [welcome _ ep inl])[i]? = some c at hc
    by_cases hlt : i < s.conns.length
    · exact h i c (by rwa [List.getElem?_append_left hlt] at hc)
    · rw [List.getElem?_append_right (by omega)] at hc
      obtain rfl := List.mem_singleton.mp (List.mem_of_getElem? hc)
      exact welcome_reachable _ ep inl

theorem sound_runTask (h : Sound s) (task : Task) : Sound (s.runTask inl task) := by
  cases task with
  | handleRun => exact h
  | handleStop => exact sound_stopAll (s := { s with ec := some .operationAborted, accepts := _ }) h

theorem sound_submit (h : Sound s) (task : Task) (onExecutor : Bool) : Sound (s.submit task onExecutor inl) := by
  cases onExecutor with
  | true => exact sound_runTask h task
  | false => exact h

end Connections

theorem connection_reachable {s : State} (h : machine.Reachable s) : Sound s := by
  refine h.invariant (I := Sound) ?_ ?_
  · rintro s rfl i c hc
    simp [State.init] at hc
  · intro s a t hs ha
    cases a with
    | run onExecutor =>
      obtain rfl := Option.some.inj ha
      exact sound_submit (s := s.emit .run) hs .handleRun onExecutor
    | stop onExecutor inl =>
      obtain rfl := Option.some.inj ha
      exact sound_submit hs .handleStop onExecutor
    | runTask i inl =>
      obtain ⟨task,-,rfl⟩ := Option.map_eq_some_iff.mp ha
      exact sound_runTask (s := { s with tasks := s.tasks.eraseIdx i }) hs task
    | acceptCompletes i result =>
      obtain ⟨st,-,rfl⟩ := Option.map_eq_some_iff.mp ha
      exact hs
    | accepted i inl =>
      obtain ⟨result,-,rfl⟩ := Option.map_eq_some_iff.mp ha
      exact sound_handleAccept (s := { s with accepts := s.accepts.eraseIdx i }) hs result
    | connection i b =>
      simp only [machine,step] at ha
      split at ha
      · exact absurd ha (by simp)
      · obtain ⟨c,hc,hmap⟩ := Option.bind_eq_some_iff.mp ha
        obtain ⟨d,hd,rfl⟩ := Option.map_eq_some_iff.mp hmap
        intro j e he
        rcases get_set_cases he with ⟨rfl,rfl⟩ | ⟨-,he⟩
        · exact (hs j c hc).step hd
        · exact hs j e he

end EchoServer
end BeastWebsocketEcho
