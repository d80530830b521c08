import BeastWebsocketEcho.ChatConnectionHalt
import BeastWebsocketEcho.ChatServerRuns

/-!
# The chat server echoes

What `dequeue_send` writes is, at every moment, a prefix of the greetings followed by
the messages read, as long as the tasks that a connection dispatches run in the order
in which they were dispatched. The messages go from the server and from `run_state`
through the queue to `dequeue_send`, and a stop may wipe the queue at any point.
-/

namespace BeastWebsocketEcho
namespace ChatConnection

/-- The writes are those messages that successful pops handed over and that have arrived. -/
def Delivered (s : State) : Prop := AsyncQueue.Accounted s.queue (writes s.log)

theorem delivered_step {s t : State} {act : Action} (hchat : ChatState.machine.Reachable s.chat) (hw : Wired s)
    (h : Delivered s) (hstep : Step s act t) : Delivered t := by
  have hphase := AsyncQueue.reachable_phase hw.queue
  have hidle : s.tx ≠ .popping → s.queue.queue.state = .notWaiting := fun htx =>
    (hphase.idle_of_awaiting (hw.not_awaiting htx)).1
  cases hstep with
  | quiet a c cs n hc hcs => exact h
  | connected a c n hc =>
    obtain ⟨hfirst,-⟩ := hw.unspawned hchat hc
    cases hspawn : act.inl.spawn with
    | true => simpa [Delivered,State.onConnect,hspawn] using h.pop (hidle (by simp [hfirst])) act.inl.dispatch
    | false => simpa [Delivered,State.onConnect,hspawn] using h
  | message a c m n hc => simpa [Delivered] using h.call (.push m) act.inl.dispatch
  | halted a c cs tx n hc hcs => exact h.call .stop act.inl.dispatch
  | stop inl => exact h
  | send m inl => simpa [Delivered] using h.call (.push m) inl.dispatch
  | task i q hq => exact h.runTask hq
  | txStarts inl htx => exact h.pop (hidle (by simp [htx])) inl.dispatch
  | popped i c hc =>
    have hinvoke := AsyncQueue.Accounted.invoke hphase h hc
    cases hec : c.ec with
    | some e => simpa [Delivered,State.awaitWrite,AsyncQueue.carried,hec] using hinvoke
    | none => simpa [Delivered,State.awaitWrite,State.emit,AsyncQueue.carried,hec] using hinvoke
  | writeCompletes m st st' result htx => exact h
  | written m result inl htx =>
    cases result with
    | some e => simpa [Delivered,State.written,State.emit] using h
    | none =>
      have hpop := h.pop (hidle (by simp [htx])) inl.dispatch
      simpa [Delivered,State.written,State.emit] using hpop

theorem reachable_delivered {s : State} (h : machine.Reachable s) : Delivered s := by
  refine h.invariant_reachable ?_ fun s a t hr hi hstep =>
    delivered_step (reachable_chat hr) (reachable_wired hr) hi (step_cases hstep)
  rintro s rfl
  rfl

def completed (log : List Event) : ℕ := (results log).count none

def OneByOne (log : List Event) : Prop :=
  Chronicle (fun before e => (∃ m, e = .wrote m) → (writes before).length = completed before) log

/-- How many writes are under way, by the place of `dequeue_send`. -/
def Pace (s : State) : Prop :=
  match s.tx with
  | .writing _ _ => (writes s.log).length = completed s.log + 1
  | .ended _ => True
  | _ => (writes s.log).length = completed s.log

theorem pace_step {s t : State} {act : Action} (hchat : ChatState.machine.Reachable s.chat) (hw : Wired s)
    (h : OneByOne s.log ∧ Pace s) (hstep : Step s act t) : OneByOne t.log ∧ Pace t := by
  obtain ⟨hone,hpace⟩ := h
  cases hstep with
  | quiet a c cs n hc hcs => exact ⟨hone,hpace⟩
  | connected a c n hc =>
    obtain ⟨hfirst,-⟩ := hw.unspawned hchat hc
    have heven : (writes s.log).length = completed s.log := by simpa [Pace,hfirst] using hpace
    refine ⟨by simpa using hone,?_⟩
    cases hspawn : act.inl.spawn <;> simp [Pace,State.onConnect,hspawn,heven]
  | message a c m n hc =>
    refine ⟨hone.snoc (by simp),?_⟩
    simpa [Pace,completed] using hpace
  | halted a c cs tx n hc hcs =>
    refine ⟨hone,?_⟩
    rcases hcs with ⟨-,rfl⟩ | ⟨-,rfl⟩
    · cases htx : s.tx with
      | ended e => exact trivial
      | _ => simpa [Pace,Tx.cancel,htx] using hpace
    · exact hpace
  | stop inl => exact ⟨hone,hpace⟩
  | send m inl =>
    refine ⟨hone.snoc (by simp),?_⟩
    simpa [Pace,completed] using hpace
  | task i q hq => exact ⟨hone,hpace⟩
  | txStarts inl htx => exact ⟨hone,by simpa [Pace,htx] using hpace⟩
  | popped i c hc =>
    have htx := hw.popping_of_posted hc
    have heven : (writes s.log).length = completed s.log := by simpa [Pace,htx] using hpace
    cases hec : c.ec with
    | some e => exact ⟨hone,trivial⟩
    | none =>
      refine ⟨hone.snoc fun _ => heven,?_⟩
      simpa [Pace,State.awaitWrite,State.emit,completed] using heven
  | writeCompletes m st st' result htx => exact ⟨hone,by simpa [Pace,htx] using hpace⟩
  | written m result inl htx =>
    cases result with
    | some e => exact ⟨hone.snoc (by simp),trivial⟩
    | none =>
      refine ⟨hone.snoc (by simp),?_⟩
      simpa [Pace,htx,State.written,State.emit,completed] using hpace

theorem reachable_pace {s : State} (h : machine.Reachable s) : OneByOne s.log ∧ Pace s := by
  refine h.invariant_reachable (I := fun s => OneByOne s.log ∧ Pace s) ?_ fun s a t hr hi hstep =>
    pace_step (reachable_chat hr) (reachable_wired hr) hi (step_cases hstep)
  rintro s rfl
  exact ⟨Chronicle.nil,rfl⟩

/-- What the connection dispatches runs in the order in which it was dispatched. -/
def fifo (s : State) : Action → Bool
  | .runTask i => i == 0
  | a => !a.inl.dispatch || s.queue.tasks.isEmpty

theorem tasks_of_fifo {s : State} {a : Action} (h : fifo s a = true) :
    a.inl.dispatch = true → s.queue.tasks = [] := by
  intro hd
  cases a <;> simp_all [fifo,Action.inl]

/-- The messages come to the queue in the order in which they were sent: first those of the server,
then those read. -/
structure Lined (first : List String) (s : State) : Prop where
  line : AsyncQueue.lined s.queue = sends s.log
  order : sends s.log = first ++ ChatState.messages s.chat.log

theorem lined_step {first : List String} {s t : State} {act : Action} (hchat : ChatState.machine.Reachable s.chat)
    (hw : Wired s) (hfifo : fifo s act = true) (hsend : ∀ m inl, act ≠ .send m inl) (h : Lined first s)
    (hstep : Step s act t) : Lined first t := by
  have hphase := AsyncQueue.reachable_phase hw.queue
  have hidle : s.tx ≠ .popping → s.queue.queue.state = .notWaiting := fun htx =>
    (hphase.idle_of_awaiting (hw.not_awaiting htx)).1
  have htasks := tasks_of_fifo hfifo
  refine ⟨?_,hstep.sends_eq hsend h.order⟩
  have hline := h.line
  cases hstep with
  | quiet a c cs n hc hcs => exact hline
  | connected a c n hc =>
    obtain ⟨hfirst,-⟩ := hw.unspawned hchat hc
    rw [onConnect_log]
    cases hspawn : act.inl.spawn with
    | true =>
      have hpop := AsyncQueue.lined_pop (hidle (by simp [hfirst])) htasks
      simpa [State.onConnect,hspawn,hline] using hpop
    | false => simpa [State.onConnect,hspawn] using hline
  | message a c m n hc =>
    rw [send_queue,AsyncQueue.lined_call _ _ htasks,hline]
    simp
  | halted a c cs tx n hc hcs => simpa [hline] using AsyncQueue.lined_call s.queue .stop htasks
  | stop inl => exact hline
  | send m inl => exact absurd rfl (hsend m inl)
  | task i q hq =>
    obtain rfl : i = 0 := by simpa [fifo] using hfifo
    exact (AsyncQueue.lined_runTask hq).trans hline
  | txStarts inl htx => exact (AsyncQueue.lined_pop (hidle (by simp [htx])) htasks).trans hline
  | popped i c hc =>
    have hsame : AsyncQueue.lined { s.queue with
        posted := s.queue.posted.eraseIdx i
        awaiting := false
        log := s.queue.log ++ [AsyncQueue.Event.invoked c.handler false] } = sends s.log := by
      simpa [AsyncQueue.lined] using hline
    cases hec : c.ec <;> simpa [State.awaitWrite,State.emit] using hsame
  | writeCompletes m st st' result htx => exact hline
  | written m result inl htx =>
    cases result with
    | some e => simpa [State.written,State.emit] using hline
    | none =>
      have hpop : AsyncQueue.lined (s.queue.pop inl.dispatch) = sends s.log :=
        (AsyncQueue.lined_pop (hidle (by simp [htx])) htasks).trans hline
      simpa [State.written,State.emit] using hpop

/-- Every message written was pushed, and what was pushed was sent first. -/
theorem writes_prefix {first : List String} {s : State} (hr : machine.Reachable s) (h : Lined first s) :
    writes s.log <+: (first ++ (ChatState.reads s.chat.log).map String.ofList).map some := by
  have hdelivered := reachable_delivered hr
  have hparted := (reachable_halting hr).halt.parted
  have hrelay := ChatState.reachable_relay (reachable_chat hr)
  have h₁ : writes s.log <+: (AsyncQueue.successes s.queue.log).map Prod.snd := ⟨_,hdelivered⟩
  have h₂ := hparted.successes_prefix (reachable_wired hr).queue
  have h₃ : AsyncQueue.pushed s.queue.log <+: first ++ (ChatState.reads s.chat.log).map String.ofList := by
    refine ⟨s.queue.tasks.filterMap AsyncQueue.Task.push?,?_⟩
    rw [← hrelay.messages,← h.order]
    exact h.line
  exact (h₁.trans h₂).trans (h₃.map some)

end ChatConnection

namespace ChatServer

open ChatConnection (writes completed fifo Lined)

/-- What a connection writes: a prefix of the greetings and the messages read, one write at a time. -/
def Echoes (visitors : ℕ) (ep : Endpoint) (c : ChatConnection.State) : Prop :=
  writes c.log <+: (greetings visitors ep ++ (ChatState.reads c.chat.log).map String.ofList).map some ∧
    ∀ before m after, c.log = before ++ .wrote m :: after → (writes before).length = completed before

def inOrder (s : State) : Action → Bool
  | .connection i a => (s.conns[i]?).all fun c => fifo c a
  | .handleStop _ inl => !inl.dispatch || s.conns.all fun c => c.queue.tasks.isEmpty
  | _ => true

theorem lined_sends (inl : ChatConnection.Inline) (messages : List String) (c : ChatConnection.State)
    (hfifo : inl.dispatch = true → c.queue.tasks = []) :
    AsyncQueue.lined (messages.foldl (fun c message => c.send message inl) c).queue =
      AsyncQueue.lined c.queue ++ messages := by
  induction messages generalizing c with
  | nil => simp
  | cons m ms ih =>
    have hnext : inl.dispatch = true → (c.send m inl).queue.tasks = [] := by
      intro hd
      simp [AsyncQueue.State.call,hd,hfifo hd]
    rw [List.foldl_cons,ih _ hnext,ChatConnection.send_queue,AsyncQueue.lined_call _ _ hfifo]
    simp

theorem lined_welcome (visitors : ℕ) (ep : Endpoint) (inl : ChatConnection.Inline) :
    Lined (greetings visitors ep) (welcome visitors ep inl) := by
  have hqueue : (ChatConnection.State.init.run inl).queue = AsyncQueue.State.init 0 := by
    unfold ChatConnection.State.run
    split <;> rfl
  obtain ⟨hsends,hmessages⟩ := run_silent inl
  obtain ⟨hgreeted,hchat⟩ := sends_greetings inl (greetings visitors ep) (ChatConnection.State.init.run inl)
  have hline := lined_sends inl (greetings visitors ep) (ChatConnection.State.init.run inl)
      (fun _ => by rw [hqueue]; rfl)
  refine ⟨hline.trans ?_,hgreeted.trans ?_⟩
  · rw [welcome,hgreeted,hqueue,hsends]
    rfl
  · rw [welcome,hchat,hmessages,hsends]
    simp

theorem stop_tasks {c : ChatConnection.State} {inl : ChatConnection.Inline}
    (h : inl.dispatch = true → c.queue.tasks = []) :
    inl.dispatch = true → (c.stop inl).queue.tasks = [] := by
  intro hd
  have htasks := h hd
  have hcall : ∀ task, (c.queue.call task inl.dispatch).tasks = [] := by
    intro task
    simp [AsyncQueue.State.call,hd,htasks]
  have hstep : ChatConnection.Step c (.stop inl) (c.stop inl) := ChatConnection.step_cases rfl
  generalize c.stop inl = d at hstep
  cases hstep with
  | quiet a e cs n hc hcs => exact htasks
  | connected a e n hc =>
    have hpop : (c.queue.pop inl.dispatch).tasks = [] := by
      simp [AsyncQueue.State.pop,AsyncQueue.State.call,hd,htasks]
    cases hspawn : inl.spawn <;> simpa [ChatConnection.State.onConnect,ChatConnection.Action.inl,hspawn]
  | message a e m n hc => exact hcall _
  | halted a e cs tx n hc hcs => exact hcall _
  | stop => exact htasks

def InLine (x : ℕ × Endpoint) (c : ChatConnection.State) : Prop :=
  ChatConnection.machine.Reachable c ∧ Lined (greetings x.1 x.2) c

theorem inLine_step {x : ℕ × Endpoint} {c d : ChatConnection.State} {a : ChatConnection.Action} (h : InLine x c)
    (hfifo : fifo c a = true) (hsend : ∀ m inl, a ≠ .send m inl) (hstep : ChatConnection.step c a = some d) :
    InLine x d := by
  obtain ⟨hreach,hlined⟩ := h
  exact ⟨hreach.step hstep,ChatConnection.lined_step (ChatConnection.reachable_chat hreach)
    (ChatConnection.reachable_wired hreach) hfifo hsend hlined (ChatConnection.step_cases hstep)⟩

theorem reachable_inLine {s : State} (h : (machine.restrict inOrder).Reachable s) :
    List.Forall₂ InLine (starts s.log) s.conns := by
  refine h.invariant (I := fun s => List.Forall₂ InLine (starts s.log) s.conns) ?_ ?_
  · rintro s rfl
    exact List.Forall₂.nil
  · intro s a t hs ha
    obtain ⟨hok,hstep⟩ := Machine.restrict_step_iff.mp ha
    refine conns_step (step_cases hstep) hs ?_ ?_ ?_
    · exact fun x inl => ⟨welcome_reachable x.1 x.2 inl,lined_welcome x.1 x.2 inl⟩
    · rintro expired inl rfl
      -- An inline stop needs every connection's task list to be empty, and leaves it empty.
      let R := fun x (c : ChatConnection.State) => InLine x c ∧ (inl.dispatch = true → c.queue.tasks = [])
      have hall : List.Forall₂ R (starts s.log) s.conns := by
        refine forall₂_and hs fun c hc hd => ?_
        simp only [inOrder,hd,Bool.not_true,Bool.false_or,List.all_eq_true] at hok
        exact List.isEmpty_iff.mp (hok c hc)
      have hstop : ∀ x c, R x c → R x (c.stop inl) := by
        rintro x c ⟨hc,htasks⟩
        have hfifo : fifo c (.stop inl) = true := by
          cases hd : inl.dispatch with
          | true => simp [fifo,ChatConnection.Action.inl,hd,htasks hd]
          | false => simp [fifo,ChatConnection.Action.inl,hd]
        exact ⟨inLine_step hc hfifo (by simp) rfl,stop_tasks htasks⟩
      have hstopped := stopAll_forall expired hall hstop
      exact hstopped.imp fun x c hc => hc.1
    · rintro i b c d rfl hcall hc hd x hx
      have hfifo : fifo c b = true := by simpa [inOrder,hc] using hok
      refine inLine_step hx hfifo ?_ hd
      rintro m inl rfl
      simp [ChatConnection.Action.isCall] at hcall

/-- The server echoes: what any of its connections has written is a prefix of its greetings followed
by the messages it read, in order, and a write starts only after the one before it succeeded. -/
theorem connections_echo {s : State} (h : (machine.restrict inOrder).Reachable s) {i : ℕ}
    {c : ChatConnection.State} (hc : s.conns[i]? = some c) :
    ∃ visitors ep, (starts s.log)[i]? = some (visitors,ep) ∧ Echoes visitors ep c := by
  obtain ⟨⟨visitors,ep⟩,hstart,hreach,hlined⟩ := forall₂_get (reachable_inLine h) hc
  have hone := (ChatConnection.reachable_pace hreach).1
  refine ⟨visitors,ep,hstart,ChatConnection.writes_prefix hreach hlined,?_⟩
  exact fun before m after hlog => hone before _ after hlog ⟨m,rfl⟩

def greetOne : List Action :=
  let inl : ChatConnection.Inline := ⟨true,true⟩
  [.start,.acceptCompletes (.ok (.ok visitor)),.resumeAccept inl,
    .connection 0 (.chat (.acceptCompletes none) inl),.connection 0 (.chat .resumeAccept inl),
    .connection 0 (.chat (.readCompletes (.ok "hello".toList)) inl),.connection 0 (.chat .resumeRead inl),
    .connection 0 (.resumePop 0),.connection 0 (.writeCompletes none),.connection 0 (.resumeWrite inl),
    .connection 0 (.resumePop 0)]

theorem connections_echo_greetOne :
    ∃ s c, (machine.restrict inOrder).replay State.init greetOne = some s ∧ s.conns[0]? = some c ∧
      writes c.log = [some "Welcome to my websocket server!\n",some "You are visitor number 1\n"] ∧
      ∃ visitors ep, (starts s.log)[0]? = some (visitors,ep) ∧ Echoes visitors ep c := by
  have hrun : (machine.restrict inOrder).replay State.init greetOne = some _ := rfl
  exact ⟨_,_,hrun,rfl,by decide,connections_echo (Machine.Reachable.of_replay rfl hrun) rfl⟩

end ChatServer
end BeastWebsocketEcho
