import BeastWebsocketEcho.ChatConnection

/-!
# What one step of the chat connection can do

`Step` lists the steps by their effect on the three parts, and `Wired` says how the
parts hang together: the chat state and the queue are in reachable states of their own
machines, and the coroutine waits exactly when a pop of the queue is outstanding.
-/

namespace BeastWebsocketEcho
namespace ChatConnection

namespace Event

@[simp] def sent? : Event → Option String
  | .sent message => some message
  | _ => none

@[simp] def wrote? : Event → Option (Option String)
  | .wrote message => some message
  | _ => none

@[simp] def written? : Event → Option ErrorCode
  | .written result => some result
  | _ => none

end Event

def sends (log : List Event) : List String := log.filterMap Event.sent?
def writes (log : List Event) : List (Option String) := log.filterMap Event.wrote?
/-- The results of the writes with which `dequeue_send` was resumed. -/
def results (log : List Event) : List ErrorCode := log.filterMap Event.written?

section Logs

variable (l k : List Event) (e : Event)

@[simp] theorem sends_nil : sends [] = [] := rfl
@[simp] theorem writes_nil : writes [] = [] := rfl
@[simp] theorem results_nil : results [] = [] := rfl
@[simp] theorem sends_append : sends (l ++ k) = sends l ++ sends k := List.filterMap_append
@[simp] theorem writes_append : writes (l ++ k) = writes l ++ writes k := List.filterMap_append
@[simp] theorem results_append : results (l ++ k) = results l ++ results k := List.filterMap_append
@[simp] theorem sends_cons : sends (e :: l) = e.sent?.toList ++ sends l := filterMap_cons_toList _ _ _
@[simp] theorem writes_cons : writes (e :: l) = e.wrote?.toList ++ writes l := filterMap_cons_toList _ _ _
@[simp] theorem results_cons : results (e :: l) = e.written?.toList ++ results l := filterMap_cons_toList _ _ _

end Logs

def Action.inl : Action → Inline
  | .chat _ inl | .send _ inl | .stop inl | .startStop inl | .startTx inl | .resumeWrite inl => inl
  | .runTask _ | .resumePop _ | .writeCompletes _ => ⟨false,false⟩

/-- Everything one step can do. The chat state moves with the calls it makes, which come down to
nothing, a spawned coroutine, a message sent, or the stop of the queue. -/
inductive Step (s : State) : Action → State → Prop
  | quiet {act : Action} (a : ChatState.Action) (c : ChatState.State) (cs : List ChatState.Call) (n : ℕ)
      (hc : ChatState.step s.chat a = some (c,cs)) (hcs : cs = [] ∨ cs = [.asyncAccept]) :
      Step s act { s with chat := c, stops := n }
  | connected {act : Action} (a : ChatState.Action) (c : ChatState.State) (n : ℕ)
      (hc : ChatState.step s.chat a = some (c,[.onConnected,.asyncRead])) :
      Step s act ({ s with chat := c, stops := n }.onConnect act.inl)
  | message {act : Action} (a : ChatState.Action) (c : ChatState.State) (m : String) (n : ℕ)
      (hc : ChatState.step s.chat a = some (c,[.onMessage m,.asyncRead])) :
      Step s act ({ s with chat := c, stops := n }.send m act.inl)
  | halted {act : Action} (a : ChatState.Action) (c : ChatState.State) (cs : List ChatState.Call) (tx : Tx)
      (n : ℕ) (hc : ChatState.step s.chat a = some (c,cs))
      (hcs : (cs = [.cancelLowestLayer,.txqueueStop] ∧ tx = s.tx.cancel) ∨
        (cs = [.txqueueStop,.asyncClose "shutting down"] ∧ tx = s.tx)) :
      Step s act { s with chat := c, stops := n, tx := tx, queue := s.queue.call .stop act.inl.dispatch }
  | stop (inl : Inline) : Step s (.stop inl) { s with stops := s.stops + 1 }
  | send (m : String) (inl : Inline) : Step s (.send m inl) (s.send m inl)
  | task (i : ℕ) (q : AsyncQueue.State String) (hq : s.queue.runTask i = some q) :
      Step s (.runTask i) { s with queue := q }
  | txStarts (inl : Inline) (htx : s.tx = .spawned) : Step s (.startTx inl) (s.awaitPop inl)
  | popped (i : ℕ) (c : AsyncQueue.Completion String) (hc : s.queue.posted[i]? = some c) :
      Step s (.resumePop i) ({ s with queue := { s.queue with
        posted := s.queue.posted.eraseIdx i
        awaiting := false
        log := s.queue.log ++ [AsyncQueue.Event.invoked c.handler false] } }.awaitWrite c.ec c.value)
  | writeCompletes (m : Option String) (st st' : Status ErrorCode) (result : ErrorCode)
      (htx : s.tx = .writing m st) : Step s (.writeCompletes result) { s with tx := .writing m st' }
  | written (m : Option String) (result : ErrorCode) (inl : Inline) (htx : s.tx = .writing m (.done result)) :
      Step s (.resumeWrite inl) (s.written result inl)

/-- The calls that a step of the chat state makes are carried out at once. -/
theorem follow_cases {s : State} {a : ChatState.Action} {c : ChatState.State} {cs : List ChatState.Call}
    (act : Action) (n : ℕ) (hc : ChatState.step s.chat a = some (c,cs)) :
    Step s act ({ s with stops := n }.follow act.inl (c,cs)) := by
  cases ChatState.step_cases hc with
  | start => exact Step.quiet a _ _ n hc (Or.inr rfl)
  | connected => exact Step.connected a _ n hc
  | received => exact Step.message a _ _ n hc
  | cancels => exact Step.halted a _ _ _ n hc (Or.inl ⟨rfl,rfl⟩)
  | closes => exact Step.halted a _ _ _ n hc (Or.inr ⟨rfl,rfl⟩)
  | _ => exact Step.quiet a _ _ n hc (Or.inl rfl)

theorem notifyError_cases (s : State) (act : Action) (n : ℕ) :
    Step s act ({ s with stops := n }.notifyError act.inl) :=
  follow_cases (a := .notify .operationAborted) act n rfl

theorem step_cases {s t : State} {a : Action} (h : step s a = some t) : Step s a t := by
  cases a with
  | chat a inl =>
    obtain ⟨⟨c,cs⟩,hc,rfl⟩ := Option.map_eq_some_iff.mp h
    exact follow_cases (.chat a inl) s.stops hc
  | send m inl =>
    obtain rfl := Option.some.inj h
    exact Step.send m inl
  | stop inl =>
    obtain rfl := Option.some.inj h
    unfold State.stop
    split
    · exact notifyError_cases s (.stop inl) s.stops
    · exact Step.stop inl
  | startStop inl =>
    simp only [step] at h
    split at h
    · obtain rfl := Option.some.inj h
      exact notifyError_cases s (.startStop inl) _
    · exact absurd h (by simp)
  | runTask i =>
    obtain ⟨q,hq,rfl⟩ := Option.map_eq_some_iff.mp h
    exact Step.task i q hq
  | startTx inl =>
    simp only [step] at h
    split at h
    · next htx =>
      obtain rfl := Option.some.inj h
      exact Step.txStarts inl htx
    · exact absurd h (by simp)
  | resumePop i =>
    obtain ⟨c,hc,hinvoke⟩ := Option.bind_eq_some_iff.mp h
    obtain ⟨q,hq,rfl⟩ := Option.map_eq_some_iff.mp hinvoke
    simp only [AsyncQueue.State.invoke,hc,Option.map_some,Option.some.injEq] at hq
    subst hq
    exact Step.popped i c hc
  | writeCompletes result =>
    simp only [step] at h
    split at h
    · next m status htx =>
      obtain ⟨st,-,rfl⟩ := Option.map_eq_some_iff.mp h
      exact Step.writeCompletes m status st result htx
    · exact absurd h (by simp)
  | resumeWrite inl =>
    simp only [step] at h
    split at h
    · next m result htx =>
      obtain rfl := Option.some.inj h
      exact Step.written m result inl htx
    · exact absurd h (by simp)

section Fields

variable (s : State) (inl : Inline) (m : String) (ec : ErrorCode) (v : Option String)

@[simp] theorem send_chat : (s.send m inl).chat = s.chat := rfl
@[simp] theorem send_tx : (s.send m inl).tx = s.tx := rfl
@[simp] theorem send_queue : (s.send m inl).queue = s.queue.call (.push m) inl.dispatch := rfl
@[simp] theorem send_log : (s.send m inl).log = s.log ++ [Event.sent m] := rfl
@[simp] theorem awaitPop_chat : (s.awaitPop inl).chat = s.chat := rfl
@[simp] theorem awaitPop_tx : (s.awaitPop inl).tx = .popping := rfl
@[simp] theorem awaitPop_queue : (s.awaitPop inl).queue = s.queue.pop inl.dispatch := rfl
@[simp] theorem awaitPop_log : (s.awaitPop inl).log = s.log := rfl
@[simp] theorem awaitWrite_chat : (s.awaitWrite ec v).chat = s.chat := by cases ec <;> rfl
@[simp] theorem written_chat : (s.written ec inl).chat = s.chat := by cases ec <;> rfl
@[simp] theorem onConnect_chat : (s.onConnect inl).chat = s.chat := by unfold State.onConnect; split <;> rfl
@[simp] theorem onConnect_log : (s.onConnect inl).log = s.log := by unfold State.onConnect; split <;> rfl

end Fields

theorem Step.chat_exec {s t : State} {act : Action} (h : Step s act t) :
    ∃ as, Machine.Exec ChatState.machine s.chat as t.chat := by
  have hsingle : ∀ {a : ChatState.Action} {c : ChatState.State} {cs : List ChatState.Call},
      ChatState.step s.chat a = some (c,cs) → ∃ as, Machine.Exec ChatState.machine s.chat as c :=
    fun {a} _ _ hc => ⟨[a],Machine.Exec.single (by simp [ChatState.machine,hc])⟩
  cases h with
  | quiet a c cs n hc => exact hsingle hc
  | connected a c n hc => simpa using hsingle hc
  | message a c m n hc => exact hsingle hc
  | halted a c cs tx n hc => exact hsingle hc
  | popped i c hc => exact ⟨[],by simpa using Machine.Exec.refl _⟩
  | written m result inl htx => exact ⟨[],by simpa using Machine.Exec.refl _⟩
  | _ => exact ⟨[],Machine.Exec.refl _⟩

theorem reachable_chat {s : State} (h : machine.Reachable s) : ChatState.machine.Reachable s.chat := by
  refine h.project (f := State.chat) ?_ fun s a t hstep => (step_cases hstep).chat_exec
  rintro s rfl
  exact Machine.Reachable.init rfl

/-- What a connection sends in a step is what it reads there, unless it is called. -/
theorem Step.sends_eq {first : List String} {s t : State} {act : Action} (hstep : Step s act t)
    (hsend : ∀ m inl, act ≠ .send m inl) (h : sends s.log = first ++ ChatState.messages s.chat.log) :
    sends t.log = first ++ ChatState.messages t.chat.log := by
  have hcalls : ∀ {a : ChatState.Action} {c : ChatState.State} {cs : List ChatState.Call},
      ChatState.step s.chat a = some (c,cs) →
      ChatState.messages c.log = ChatState.messages s.chat.log ++ cs.filterMap ChatState.Call.message? :=
    fun hc => ChatState.messages_of_calls _ _ (ChatState.step_cases hc).calls_eq
  cases hstep with
  | quiet a c cs n hc hcs =>
    rw [hcalls hc]
    rcases hcs with rfl | rfl <;> simpa [List.filterMap_cons] using h
  | connected a c n hc =>
    rw [onConnect_chat,onConnect_log,hcalls hc]
    simpa [List.filterMap_cons] using h
  | message a c m n hc =>
    rw [send_chat,hcalls hc]
    simp [List.filterMap_cons,h]
  | halted a c cs tx n hc hcs =>
    rw [hcalls hc]
    rcases hcs with ⟨rfl,-⟩ | ⟨rfl,-⟩ <;> simpa [List.filterMap_cons] using h
  | send m inl => exact absurd rfl (hsend m inl)
  | popped i c hc => cases hec : c.ec <;> simpa [State.awaitWrite,State.emit] using h
  | written m result inl htx => cases result <;> simpa [State.written,State.emit] using h
  | _ => exact h

/-- The parts hang together: the queue goes through a run of its own machine, between tasks, and
`dequeue_send` is spawned by `on_connected` and waits exactly for its outstanding pop. -/
structure Wired (s : State) : Prop where
  queue : (AsyncQueue.machine String).Reachable s.queue
  idle : s.queue.running = none
  awaiting : s.queue.awaiting = true ↔ s.tx = .popping
  started : s.tx = .unspawned ↔ ChatState.connects s.chat.log = 0

theorem Wired.not_awaiting {s : State} (h : Wired s) (htx : s.tx ≠ .popping) : s.queue.awaiting = false := by
  rw [← Bool.not_eq_true,h.awaiting]
  exact htx

theorem Wired.awaitPop {s : State} (h : Wired s) (hstart : s.tx ≠ .unspawned) (htx : s.tx ≠ .popping)
    (inl : Inline) : Wired (s.awaitPop inl) := by
  obtain ⟨as,hexec⟩ := AsyncQueue.pop_exec s.queue inl.dispatch h.idle (h.not_awaiting htx)
  refine ⟨h.queue.exec hexec,by simpa using h.idle,by simp,?_⟩
  simpa [← h.started] using hstart

theorem Wired.call {s t : State} (h : Wired s) {inline : Bool} {task : AsyncQueue.Task String}
    (hqueue : t.queue = s.queue.call task inline)
    (hexec : ∃ as, Machine.Exec (AsyncQueue.machine String) s.queue as (s.queue.call task inline))
    (hpop : t.tx = .popping ↔ s.tx = .popping)
    (hstart : t.tx = .unspawned ↔ ChatState.connects t.chat.log = 0) : Wired t := by
  obtain ⟨as,hexec⟩ := hexec
  refine ⟨hqueue ▸ h.queue.exec hexec,by simpa [hqueue] using h.idle,?_,hstart⟩
  rw [hqueue,hpop]
  simpa using h.awaiting

@[simp] theorem Tx.cancel_eq_popping (tx : Tx) : tx.cancel = .popping ↔ tx = .popping := by
  cases tx <;> simp [Tx.cancel]
@[simp] theorem Tx.cancel_eq_unspawned (tx : Tx) : tx.cancel = .unspawned ↔ tx = .unspawned := by
  cases tx <;> simp [Tx.cancel]

theorem wired_init : Wired State.init :=
  ⟨Machine.Reachable.init ⟨0,rfl⟩,rfl,by decide,by decide⟩

/-- A completion that is posted belongs to the pop that `dequeue_send` awaits. -/
theorem Wired.popping_of_posted {s : State} (h : Wired s) {i : ℕ} {c : AsyncQueue.Completion String}
    (hc : s.queue.posted[i]? = some c) : s.tx = .popping := by
  rw [← h.awaiting]
  cases AsyncQueue.reachable_phase h.queue with
  | idle _ _ _ h₄ => simp [h₄] at hc
  | waiting p _ h₂ => exact h₂
  | serving p _ h₂ => exact h₂
  | posted p c _ h₂ => exact h₂

/-- The chat connects once, so the coroutine has not been spawned before. -/
theorem Wired.unspawned {s : State} (hchat : ChatState.machine.Reachable s.chat) (h : Wired s)
    {a : ChatState.Action} {c : ChatState.State}
    (hc : ChatState.step s.chat a = some (c,[.onConnected,.asyncRead])) :
    s.tx = .unspawned ∧ ChatState.connects c.log ≠ 0 := by
  have hreach : ChatState.machine.Reachable c := hchat.step (a := a) (by simp [ChatState.machine,hc])
  have hone := (ChatState.reachable_regular hreach).connects_le_one
  have hconnects := ChatState.connects_of_calls _ _ (ChatState.step_cases hc).calls_eq
  simp only [List.count_cons_self,List.count_cons_of_ne (show ChatState.Call.asyncRead ≠ .onConnected by simp),
    List.count_nil] at hconnects
  exact ⟨h.started.mpr (by omega),by omega⟩

theorem wired_step {s t : State} {act : Action} (hchat : ChatState.machine.Reachable s.chat) (h : Wired s)
    (hstep : Step s act t) : Wired t := by
  have hcalls : ∀ {a : ChatState.Action} {c : ChatState.State} {cs : List ChatState.Call},
      ChatState.step s.chat a = some (c,cs) →
      ChatState.connects c.log = ChatState.connects s.chat.log + cs.count .onConnected :=
    fun hc => ChatState.connects_of_calls _ _ (ChatState.step_cases hc).calls_eq
  cases hstep with
  | quiet a c cs n hc hcs =>
    refine ⟨h.queue,h.idle,h.awaiting,?_⟩
    rw [hcalls hc,h.started]
    rcases hcs with rfl | rfl <;> simp
  | connected a c n hc =>
    obtain ⟨hfirst,hpos⟩ := h.unspawned hchat hc
    obtain ⟨as,hexec⟩ := AsyncQueue.pop_exec s.queue act.inl.dispatch h.idle (h.not_awaiting (by simp [hfirst]))
    cases hspawn : act.inl.spawn with
    | true => exact ⟨by simpa [State.onConnect,hspawn] using h.queue.exec hexec,
        by simpa [State.onConnect,hspawn] using h.idle,by simp [State.onConnect,hspawn],
        by simpa [State.onConnect,hspawn] using hpos⟩
    | false => exact ⟨by simpa [State.onConnect,hspawn] using h.queue,
        by simpa [State.onConnect,hspawn] using h.idle,
        by simpa [State.onConnect,hspawn] using h.not_awaiting (by simp [hfirst]),
        by simpa [State.onConnect,hspawn] using hpos⟩
  | message a c m n hc =>
    refine h.call rfl (AsyncQueue.push_exec s.queue m act.inl.dispatch h.idle) Iff.rfl ?_
    rw [send_chat,hcalls hc]
    simpa using h.started
  | halted a c cs tx n hc hcs =>
    have hcount : cs.count .onConnected = 0 := by rcases hcs with ⟨rfl,-⟩ | ⟨rfl,-⟩ <;> simp
    refine h.call rfl (AsyncQueue.stop_exec s.queue act.inl.dispatch h.idle) ?_ ?_
    · rcases hcs with ⟨-,rfl⟩ | ⟨-,rfl⟩ <;> simp
    · rw [hcalls hc,hcount,Nat.add_zero,← h.started]
      rcases hcs with ⟨-,rfl⟩ | ⟨-,rfl⟩ <;> simp
  | stop inl => exact ⟨h.queue,h.idle,h.awaiting,h.started⟩
  | send m inl =>
    exact h.call rfl (AsyncQueue.push_exec s.queue m inl.dispatch h.idle) Iff.rfl h.started
  | task i q hq =>
    obtain ⟨as,hexec⟩ := AsyncQueue.runTask_exec h.idle hq
    obtain ⟨task,-,rfl⟩ := Option.map_eq_some_iff.mp hq
    exact ⟨h.queue.exec hexec,by simpa using h.idle,by simpa using h.awaiting,h.started⟩
  | txStarts inl htx => exact h.awaitPop (by simp [htx]) (by simp [htx]) inl
  | popped i c hc =>
    have htx := h.popping_of_posted hc
    have hstart : ChatState.connects s.chat.log ≠ 0 := by simp [← h.started,htx]
    have hreach := h.queue.exec (AsyncQueue.invoke_exec hc)
    cases hec : c.ec with
    | some e => exact ⟨hreach,h.idle,by simp [State.awaitWrite],by simpa [State.awaitWrite] using hstart⟩
    | none =>
        exact ⟨hreach,h.idle,by simp [State.awaitWrite,State.emit],
          by simpa [State.awaitWrite,State.emit] using hstart⟩
  | writeCompletes m st st' result htx =>
    refine ⟨h.queue,h.idle,?_,?_⟩
    · rw [h.awaiting,htx]
      simp
    · rw [← h.started,htx]
      simp
  | written m result inl htx =>
    have hstart : ChatState.connects s.chat.log ≠ 0 := by simp [← h.started,htx]
    cases result with
    | some e =>
      exact ⟨h.queue,h.idle,by simpa [State.written,State.emit] using h.not_awaiting (by simp [htx]),
        by simpa [State.written,State.emit] using hstart⟩
    | none =>
      have hsame : Wired (s.emit (.written none)) := ⟨h.queue,h.idle,h.awaiting,h.started⟩
      exact hsame.awaitPop (by simp [State.emit,htx]) (by simp [State.emit,htx]) inl

theorem reachable_wired {s : State} (h : machine.Reachable s) : Wired s := by
  refine h.invariant_reachable ?_ fun s a t hr hi hstep => wired_step (reachable_chat hr) hi (step_cases hstep)
  rintro s rfl
  exact wired_init

end ChatConnection
end BeastWebsocketEcho
