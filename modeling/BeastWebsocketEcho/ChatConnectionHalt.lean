import BeastWebsocketEcho.ChatConnectionSteps

/-!
# What ends the transmit loop

When the chat has come to its end and nothing is left to run, the coroutine
`dequeue_send` has ended if somebody released it: a stop that found the chat running
stops the queue, and a failed write throws. A peer that closes, or a read that fails,
ends `run_state` without a word to the queue, and the coroutine waits for ever.
-/

namespace BeastWebsocketEcho
namespace ChatConnection

def Tx.Ended (tx : Tx) : Prop := ∃ e, tx = .ended e

def WriteFailed (log : List Event) : Prop := ∃ e, some e ∈ results log

/-- The queue is halted by the stop of the chat state, and the coroutine ends by the queue or by a
failed write. -/
structure Halting (s : State) : Prop where
  due : AsyncQueue.Due s.queue ↔ 0 < ChatState.queueStops s.chat.log
  halt : AsyncQueue.Halt s.queue s.tx.Ended
  ended : s.tx.Ended → .stopped ∈ s.queue.log ∨ WriteFailed s.log
  failed : WriteFailed s.log → s.tx.Ended

theorem halting_init : Halting State.init := by
  refine ⟨by simp [AsyncQueue.Due,State.init,AsyncQueue.State.init,ChatState.State.init,ChatState.queueStops],
    ⟨?_,?_,⟨[],[],rfl,by simp,by simp,by simp⟩⟩,?_,?_⟩
  · rintro (h | ⟨c,hc,-⟩)
    · simp [State.init,AsyncQueue.State.init,AsyncQueue.Impl.construct] at h
    · simp [State.init,AsyncQueue.State.init] at hc
  · intro h
    simp [State.init,AsyncQueue.State.init] at h
  · rintro ⟨e,he⟩
    simp [State.init] at he
  · rintro ⟨e,he⟩
    simp [State.init] at he

theorem Halting.awaitPop {s : State} (hqueue : (AsyncQueue.machine String).Reachable s.queue)
    (hidle : s.queue.running = none) (ha : s.queue.awaiting = false) (h : Halting s) (hended : ¬ s.tx.Ended)
    (inl : Inline) : Halting (s.awaitPop inl) := by
  have hphase := AsyncQueue.reachable_phase hqueue
  have hpopping : ¬ (s.awaitPop inl).tx.Ended := by rintro ⟨e,he⟩; simp at he
  refine ⟨?_,?_,fun he => absurd he hpopping,fun hf => absurd (h.failed (by simpa using hf)) hended⟩
  · rw [awaitPop_queue,AsyncQueue.due_pop hphase ha]
    exact h.due
  · have hpop := (h.halt.mono (fun he => hended he)).pop hphase ha hidle inl.dispatch
    exact hpop.mono False.elim

/-- The connection calls the queue, which changes neither the coroutine's end nor a write's result. -/
theorem Halting.call {s t : State} (hw : Wired s) (h : Halting s) {inline : Bool} {task : AsyncQueue.Task String}
    (hqueue : t.queue = s.queue.call task inline) (htx : t.tx.Ended ↔ s.tx.Ended)
    (hresults : results t.log = results s.log)
    (hstops : 0 < ChatState.queueStops t.chat.log ↔ 0 < ChatState.queueStops s.chat.log ∨ task = .stop) :
    Halting t := by
  have hphase := AsyncQueue.reachable_phase hw.queue
  have hgone : s.tx.Ended → s.queue.awaiting = false := by
    rintro ⟨e,he⟩
    exact hw.not_awaiting (by simp [he])
  have hhalt := h.halt.call hphase hgone task inline
  refine ⟨?_,?_,?_,?_⟩
  · rw [hqueue,AsyncQueue.due_call,hstops,h.due]
  · rw [hqueue]
    exact hhalt.mono htx.mpr
  · intro he
    rcases h.ended (htx.mp he) with hs | hf
    · rw [hqueue]
      exact Or.inl (AsyncQueue.stopped_call hs task inline)
    · exact Or.inr (by simpa [WriteFailed,hresults] using hf)
  · intro hf
    rw [htx]
    exact h.failed (by simpa [WriteFailed,hresults] using hf)

@[simp] theorem Tx.cancel_ended (tx : Tx) : tx.cancel.Ended ↔ tx.Ended := by
  cases tx <;> simp [Tx.cancel,Tx.Ended]

theorem Halting.frame {s t : State} (h : Halting s) (hended : t.tx.Ended ↔ s.tx.Ended)
    (hstops : ChatState.queueStops t.chat.log = ChatState.queueStops s.chat.log)
    (hsame : (t.queue,results t.log) = (s.queue,results s.log)) : Halting t := by
  simp only [Prod.mk.injEq] at hsame
  obtain ⟨hqueue,hresults⟩ := hsame
  refine ⟨by rw [hqueue,hstops]; exact h.due,by rw [hqueue]; exact h.halt.mono hended.mpr,?_,?_⟩
  · rw [hqueue,hended,WriteFailed,hresults]
    exact h.ended
  · rw [hended,WriteFailed,hresults]
    exact h.failed

theorem halting_step {s t : State} {act : Action} (hchat : ChatState.machine.Reachable s.chat) (hw : Wired s)
    (h : Halting s) (hstep : Step s act t) : Halting t := by
  have hcalls : ∀ {a : ChatState.Action} {c : ChatState.State} {cs : List ChatState.Call},
      ChatState.step s.chat a = some (c,cs) →
      ChatState.queueStops c.log = ChatState.queueStops s.chat.log + cs.count .txqueueStop :=
    fun hc => ChatState.queueStops_of_calls _ _ (ChatState.step_cases hc).calls_eq
  cases hstep with
  | quiet a c cs n hc hcs =>
    refine h.frame Iff.rfl ?_ rfl
    rw [hcalls hc]
    rcases hcs with rfl | rfl <;> simp
  | connected a c n hc =>
    obtain ⟨hfirst,-⟩ := hw.unspawned hchat hc
    have hsame : Halting { s with chat := c, stops := n } := by
      refine h.frame Iff.rfl ?_ rfl
      rw [hcalls hc]
      simp
    cases hspawn : act.inl.spawn with
    | true =>
      have ha := hw.not_awaiting (by simp [hfirst])
      have hpop := Halting.awaitPop (s := { s with chat := c, stops := n }) hw.queue hw.idle ha hsame
        (by simp [hfirst,Tx.Ended]) act.inl
      simpa [State.onConnect,hspawn] using hpop
    | false =>
      have hframe := hsame.frame (t := { s with chat := c, stops := n, tx := .spawned })
        (by simp [hfirst,Tx.Ended]) rfl rfl
      simpa [State.onConnect,hspawn] using hframe
  | message a c m n hc =>
    refine h.call hw rfl Iff.rfl (by simp) ?_
    rw [send_chat,hcalls hc]
    simp
  | halted a c cs tx n hc hcs =>
    have hcount : 0 < cs.count .txqueueStop := by rcases hcs with ⟨rfl,-⟩ | ⟨rfl,-⟩ <;> simp
    refine h.call hw rfl ?_ rfl ?_
    · rcases hcs with ⟨-,rfl⟩ | ⟨-,rfl⟩ <;> simp
    · rw [hcalls hc]
      exact iff_of_true (by omega) (Or.inr rfl)
  | stop inl => exact h.frame Iff.rfl rfl rfl
  | send m inl => exact h.call hw rfl Iff.rfl (by simp) (by simp)
  | task i q hq =>
    have hgone : s.tx.Ended → s.queue.awaiting = false := by
      rintro ⟨e,he⟩
      exact hw.not_awaiting (by simp [he])
    refine ⟨(AsyncQueue.due_runTask hq).trans h.due,
      h.halt.runTask (AsyncQueue.reachable_phase hw.queue) hgone hq,fun he => ?_,h.failed⟩
    exact (h.ended he).imp_left (AsyncQueue.stopped_runTask hq)
  | txStarts inl htx =>
    exact h.awaitPop hw.queue hw.idle (hw.not_awaiting (by simp [htx])) (by simp [htx,Tx.Ended]) inl
  | popped i c hc =>
    have htx := hw.popping_of_posted hc
    have hended : ¬ s.tx.Ended := by simp [htx,Tx.Ended]
    have hhalt := (h.halt.mono (fun he => hended he)).invoke hc
    have hdue := h.due
    have hfailed : ¬ WriteFailed s.log := fun hf => hended (h.failed hf)
    cases hec : c.ec with
    | some e =>
      -- The error that reaches the coroutine comes from a stop.
      have hstop := h.halt.faulted (Or.inr ⟨c,List.mem_of_getElem? hc,by simp [hec]⟩)
      refine ⟨by simpa [State.awaitWrite,AsyncQueue.Due] using hdue,hhalt.mono fun _ => ⟨e,rfl⟩,
        fun _ => Or.inl (by simpa [State.awaitWrite] using hstop),fun _ => ⟨e,rfl⟩⟩
    | none =>
      refine ⟨by simpa [State.awaitWrite,State.emit,AsyncQueue.Due] using hdue,hhalt.mono (by simp [hec]),
        by simp [State.awaitWrite,Tx.Ended],fun hf => absurd ?_ hfailed⟩
      simpa [State.awaitWrite,State.emit,WriteFailed] using hf
  | writeCompletes m st st' result htx => exact h.frame (by simp [Tx.Ended,htx]) rfl rfl
  | written m result inl htx =>
    have hended : ¬ s.tx.Ended := by simp [htx,Tx.Ended]
    cases result with
    | some e =>
      exact ⟨h.due,h.halt.mono fun he => absurd he hended,
        fun _ => Or.inr ⟨e,by simp [State.written,State.emit]⟩,fun _ => ⟨e,rfl⟩⟩
    | none =>
      have hsame : Halting (s.emit (.written none)) := by
        refine ⟨h.due,h.halt,fun he => absurd he hended,fun hf => h.failed ?_⟩
        simpa [State.emit,WriteFailed] using hf
      exact Halting.awaitPop (s := s.emit (.written none)) hw.queue hw.idle (hw.not_awaiting (by simp [htx]))
        hsame hended inl

theorem reachable_halting {s : State} (h : machine.Reachable s) : Halting s := by
  refine h.invariant_reachable ?_ fun s a t hr hi hstep =>
    halting_step (reachable_chat hr) (reachable_wired hr) hi (step_cases hstep)
  rintro s rfl
  exact halting_init

/-- The coroutine neither has still to begin nor awaits a write. -/
def Tx.settled : Tx → Bool
  | .unspawned | .popping | .ended _ => true
  | .spawned | .writing _ _ => false

/-- No queued task or completion, no coroutine still to begin, and no network operation is left. -/
structure Quiescent (s : State) : Prop where
  stops : s.stops = 0
  tasks : s.queue.tasks = []
  posted : s.queue.posted = []
  accept : s.chat.accept = none
  read : s.chat.read = none
  closing : s.chat.closing = 0
  tx : s.tx.settled = true

/-- `dequeue_send` is not suspended in its pop: it was never started, or it has ended. -/
def TxGone (s : State) : Prop := s.tx ≠ .popping ∧ (s.tx = .unspawned ∨ s.tx.Ended)

/-- The chat never connected because no handshake succeeded before the first stop, or the first stop
found it chatting, or a write failed. -/
def Released (s : State) : Prop :=
  ChatState.HandshakeLost s.chat.log ∨
    (ChatState.notifications s.chat.log).head?.map Prod.snd = some .chatting ∨ WriteFailed s.log

theorem Quiescent.not_popping {s : State} (h : Quiescent s) (hw : Wired s) (hhalt : Halting s)
    (hstop : .stopped ∈ s.queue.log) : s.tx ≠ .popping := by
  intro htx
  have hawait : s.queue.awaiting = true := hw.awaiting.mpr htx
  have hec : s.queue.queue.ec.isSome = true := by
    rcases hhalt.halt.halted hstop with (hec | ⟨c,hc,-⟩) | ⟨e,he⟩
    · exact hec
    · simp [h.posted] at hc
    · simp [htx] at he
  have hwaiting : s.queue.queue.state = .waiting := by
    cases AsyncQueue.reachable_phase hw.queue with
    | idle h₁ => simp [h₁] at hawait
    | waiting p _ _ h₃ => exact h₃
    | serving p _ _ _ _ _ h₆ => simp [AsyncQueue.State.pc,hw.idle] at h₆
    | posted p c _ _ _ _ h₅ => simp [h.posted] at h₅
  have hempty : s.queue.queue.empty = false := by
    obtain ⟨e,he⟩ := Option.isSome_iff_exists.mp hec
    simp [AsyncQueue.Impl.empty,he]
  rcases AsyncQueue.reachable_woken hw.queue hwaiting hempty with htasks | ⟨pc,hpc,-⟩
  · exact htasks h.tasks
  · simp [AsyncQueue.State.pc,hw.idle] at hpc

theorem Quiescent.gone_iff {s : State} (h : Quiescent s) : TxGone s ↔ s.tx ≠ .popping := by
  refine ⟨And.left,fun hne => ⟨hne,?_⟩⟩
  have hsettled := h.tx
  cases htx : s.tx with
  | unspawned => exact Or.inl rfl
  | popping => exact absurd htx hne
  | ended e => exact Or.inr ⟨e,rfl⟩
  | spawned => simp [htx,Tx.settled] at hsettled
  | writing m st => simp [htx,Tx.settled] at hsettled

/-- When nothing is left to run, the transmit loop is gone if and only if it was released. -/
theorem transmit_loop_gone_iff {s : State} (hr : machine.Reachable s) (h : Quiescent s) :
    TxGone s ↔ Released s := by
  have hw := reachable_wired hr
  have hhalt := reachable_halting hr
  have hway := ChatState.reachable_wayOut (reachable_chat hr)
  have hdecided : ChatState.HandshakeLost s.chat.log ↔ s.tx = .unspawned :=
    (ChatState.reachable_decided (reachable_chat hr)).trans hw.started.symm
  constructor
  · rintro ⟨-,htx | hended⟩
    · exact Or.inl (hdecided.mpr htx)
    · rcases hhalt.ended hended with hstop | hfailed
      · -- The queue was stopped, and the chat had connected: it was stopped while chatting.
        have hstops := hhalt.due.mp (Or.inr hstop)
        have hconnects : ChatState.connects s.chat.log ≠ 0 := by
          obtain ⟨e,he⟩ := hended
          simp [← hw.started,he]
        have hcancels : ¬ 0 < ChatState.cancels s.chat.log := fun hpos => hconnects (hway.cancelled hpos)
        have hcloses : 0 < ChatState.closes s.chat.log := by
          have hsum := hway.stops
          omega
        exact Or.inr (Or.inl (hway.closed.mp hcloses))
      · exact Or.inr (Or.inr hfailed)
  · rw [h.gone_iff]
    rintro (hlost | hchatting | hfailed)
    · simp [hdecided.mp hlost]
    · have hcloses := hway.closed.mpr hchatting
      have hstops : 0 < ChatState.queueStops s.chat.log := by
        have hsum := hway.stops
        omega
      rcases hhalt.due.mpr hstops with hmem | hstop
      · simp [h.tasks] at hmem
      · exact h.not_popping hw hhalt hstop
    · obtain ⟨e,he⟩ := hhalt.failed hfailed
      simp [he]

def atOnce : Inline := ⟨true,true⟩

def stopWhileIdle : List Action :=
  [.chat .start atOnce,.chat (.acceptCompletes none) atOnce,.chat .resumeAccept atOnce,.stop atOnce,
    .resumePop 0,.chat (.readCompletes (.error .closed)) atOnce,.chat .resumeRead atOnce,
    .chat .closeCompletes atOnce]

theorem transmit_loop_gone_stopWhileIdle :
    ∃ s, machine.replay State.init stopWhileIdle = some s ∧ s.chat.base.state = .exitState ∧
      (TxGone s ↔ Released s) := by
  refine ⟨_,rfl,rfl,?_⟩
  have hrun : machine.replay State.init stopWhileIdle = some _ := rfl
  exact transmit_loop_gone_iff (Machine.Reachable.of_replay rfl hrun)
    ⟨rfl,rfl,rfl,rfl,rfl,rfl,rfl⟩

/-- The peer closes while the transmit loop waits for a message, and nobody has called `stop`. -/
def peerCloses : List Action :=
  [.chat .start atOnce,.chat (.acceptCompletes none) atOnce,.chat .resumeAccept atOnce,
    .chat (.readCompletes (.error .closed)) atOnce,.chat .resumeRead atOnce]

theorem transmit_loop_outlives_chat :
    ¬ ∀ s, machine.Reachable s → s.chat.base.state = .exitState → Quiescent s → TxGone s := by
  intro h
  have hrun : machine.replay State.init peerCloses = some _ := rfl
  have hgone := h _ (Machine.Reachable.of_replay rfl hrun) rfl
    ⟨rfl,rfl,rfl,rfl,rfl,rfl,rfl⟩
  exact hgone.1 rfl

end ChatConnection
end BeastWebsocketEcho
