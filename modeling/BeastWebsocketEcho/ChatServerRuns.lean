import BeastWebsocketEcho.ChatServer
import BeastWebsocketEcho.Chronicle

/-!
# Runs of the chat server

Every connection of the server goes through a run of its own machine. Once the server
was stopped it starts no other connection, as long as no stop runs while a successful
accept waits to resume the accept loop: the loop does not look at `ec_` again before it
starts the connection.
-/

namespace BeastWebsocketEcho
namespace ChatServer

@[simp] def Event.started? : Event → Option (ℕ × Endpoint)
  | .started visitors ep => some (visitors,ep)
  | .stopped => none

/-- The connections that were started, with what their greetings say. -/
def starts (log : List Event) : List (ℕ × Endpoint) := log.filterMap Event.started?

section Logs

variable (l k : List Event) (e : Event)

@[simp] theorem starts_nil : starts [] = [] := rfl
@[simp] theorem starts_append : starts (l ++ k) = starts l ++ starts k := List.filterMap_append
@[simp] theorem starts_cons : starts (e :: l) = e.started?.toList ++ starts l := filterMap_cons_toList _ _ _

end Logs

@[simp] theorem turn_conns (s : State) : s.turn.conns = s.conns := by unfold State.turn; split <;> rfl
@[simp] theorem turn_log (s : State) : s.turn.log = s.log := by unfold State.turn; split <;> rfl
@[simp] theorem turn_connections (s : State) : s.turn.connections = s.connections := by
  unfold State.turn; split <;> rfl
@[simp] theorem turn_ec (s : State) : s.turn.ec = s.ec := by unfold State.turn; split <;> rfl

inductive Step (s : State) : Action → State → Prop
  | start (hl : s.loop = .notStarted) : Step s .start s.turn
  | acceptCompletes (status : Status AcceptResult) (result : AcceptResult) (hl : s.loop = .accepting status)
      (hst : status = .pending ∨ status = .cancelled ∧ acceptFailed result = true) :
      Step s (.acceptCompletes result) { s with loop := .accepting (.done result) }
  | turned (result : AcceptResult) (inl : ChatConnection.Inline) (hl : s.loop = .accepting (.done result)) :
      Step s (.resumeAccept inl) s.turn
  | threw (result : AcceptResult) (e : Error) (inl : ChatConnection.Inline)
      (hl : s.loop = .accepting (.done result)) : Step s (.resumeAccept inl) { s with loop := .threw e }
  | accepted (ep : Endpoint) (inl : ChatConnection.Inline) (hl : s.loop = .accepting (.done (.ok (.ok ep)))) :
      Step s (.resumeAccept inl) (s.startConnection ep inl).turn
  | stop : Step s .stop { s with stops := s.stops + 1 }
  | handleStop (expired : List ℕ) (inl : ChatConnection.Inline) :
      Step s (.handleStop expired inl) ({ s with stops := s.stops - 1 }.handleStop expired inl)
  | connection (i : ℕ) (a : ChatConnection.Action) (c d : ChatConnection.State) (ha : a.isCall = false)
      (hc : s.conns[i]? = some c) (hd : ChatConnection.step c a = some d) :
      Step s (.connection i a) { s with conns := s.conns.set i d }

theorem step_cases {s t : State} {a : Action} (h : step s a = some t) : Step s a t := by
  cases a with
  | start =>
    simp only [step] at h
    split at h
    · next hl =>
      obtain rfl := Option.some.inj h
      exact Step.start hl
    · exact absurd h (by simp)
  | acceptCompletes result =>
    simp only [step] at h
    split at h
    · next status hl =>
      obtain ⟨st,hst,rfl⟩ := Option.map_eq_some_iff.mp h
      obtain ⟨rfl,hcase⟩ := Status.complete_cases hst
      exact Step.acceptCompletes status result hl hcase
    · exact absurd h (by simp)
  | resumeAccept inl =>
    simp only [step] at h
    split at h
    · next result hl =>
      obtain rfl := Option.some.inj h
      have hcaught : ∀ e, Step s (.resumeAccept inl) (s.caught e) := by
        intro e
        unfold State.caught
        split
        · exact Step.turned result inl hl
        · exact Step.threw result e inl hl
      match result, hl with
      | .error e, hl => exact hcaught e
      | .ok (.error e), hl => exact hcaught e
      | .ok (.ok ep), hl => exact Step.accepted ep inl hl
    · exact absurd h (by simp)
  | stop =>
    obtain rfl := Option.some.inj h
    exact Step.stop
  | handleStop expired inl =>
    simp only [step] at h
    split at h
    · obtain rfl := Option.some.inj h
      exact Step.handleStop expired inl
    · exact absurd h (by simp)
  | connection i a =>
    simp only [step] at h
    split at h
    · exact absurd h (by simp)
    · next ha =>
      obtain ⟨c,hc,hstep⟩ := Option.bind_eq_some_iff.mp h
      obtain ⟨d,hd,rfl⟩ := Option.map_eq_some_iff.mp hstep
      exact Step.connection i a c d (by simpa using ha) hc hd

section Connections

variable {R : ℕ × Endpoint → ChatConnection.State → Prop} {xs : List (ℕ × Endpoint)}

/-- `handle_stop` stops connections one after the other, by induction on the cache. -/
theorem stopAll_forall {s : State} {inl : ChatConnection.Inline} (expired : List ℕ)
    (h : List.Forall₂ R xs s.conns) (hstop : ∀ x c, R x c → R x (c.stop inl)) :
    List.Forall₂ R xs (s.stopAll expired inl) := by
  unfold State.stopAll
  generalize s.connections = cache at *
  generalize s.conns = conns at *
  induction cache generalizing conns with
  | nil => exact h
  | cons x cache ih =>
    refine ih _ ?_
    by_cases hx : x.2 ∈ expired
    · simpa [hx] using h
    · simpa [hx] using forall₂_modify h x.2 hstop

/-- What a server step does to the connections: it starts one, stops some, or lets one of them step. -/
theorem conns_step {s t : State} {a : Action} (hstep : Step s a t) (h : List.Forall₂ R (starts s.log) s.conns)
    (hwelcome : ∀ x inl, R x (welcome x.1 x.2 inl))
    (hstop : ∀ expired inl, a = .handleStop expired inl → List.Forall₂ R (starts s.log) (s.stopAll expired inl))
    (hconn : ∀ i b c d, a = .connection i b → b.isCall = false → s.conns[i]? = some c →
      ChatConnection.step c b = some d → ∀ x, R x c → R x d) :
    List.Forall₂ R (starts t.log) t.conns := by
  cases hstep with
  | start hl => simpa using h
  | acceptCompletes status result hl hst => exact h
  | turned result inl hl => simpa using h
  | threw result e inl hl => exact h
  | accepted ep inl hl =>
    have hlast : List.Forall₂ R [((assign s.connections ep s.conns.length).length,ep)]
        [welcome (assign s.connections ep s.conns.length).length ep inl] :=
      List.Forall₂.cons (hwelcome _ inl) List.Forall₂.nil
    simpa [State.startConnection] using List.rel_append h hlast
  | stop => exact h
  | handleStop expired inl => simpa [State.handleStop,State.stopAll] using hstop expired inl rfl
  | connection i b c d hcall hc hd => exact forall₂_set h hc (hconn i b c d rfl hcall hc hd)

end Connections

/-- The greetings are ordinary sends, and an inline `run` is the start of `run_state`. -/
theorem welcome_reachable (visitors : ℕ) (ep : Endpoint) (inl : ChatConnection.Inline) :
    ChatConnection.machine.Reachable (welcome visitors ep inl) := by
  have hrun : ChatConnection.machine.Reachable (ChatConnection.State.init.run inl) := by
    unfold ChatConnection.State.run
    split
    · exact (Machine.Reachable.init rfl).step (m := ChatConnection.machine) (a := .chat .start inl) rfl
    · exact Machine.Reachable.init rfl
  unfold welcome
  generalize greetings visitors ep = messages
  generalize ChatConnection.State.init.run inl = c at *
  induction messages generalizing c with
  | nil => exact hrun
  | cons m ms ih => exact ih _ (hrun.step (m := ChatConnection.machine) (a := .send m inl) rfl)

theorem run_silent (inl : ChatConnection.Inline) : ChatConnection.sends (ChatConnection.State.init.run inl).log = [] ∧
    ChatState.messages (ChatConnection.State.init.run inl).chat.log = [] := by
  unfold ChatConnection.State.run
  split <;> exact ⟨rfl,rfl⟩

theorem sends_greetings (inl : ChatConnection.Inline) (messages : List String) (c : ChatConnection.State) :
    ChatConnection.sends (messages.foldl (fun c message => c.send message inl) c).log =
        ChatConnection.sends c.log ++ messages ∧
      (messages.foldl (fun c message => c.send message inl) c).chat = c.chat := by
  induction messages generalizing c with
  | nil => simp
  | cons m ms ih =>
    obtain ⟨hsends,hchat⟩ := ih (c.send m inl)
    rw [List.foldl_cons]
    refine ⟨?_,hchat⟩
    rw [hsends]
    simp

theorem connection_reachable {s : State} (h : machine.Reachable s) {i : ℕ} {c : ChatConnection.State}
    (hc : s.conns[i]? = some c) : ChatConnection.machine.Reachable c := by
  have hall : List.Forall₂ (fun _ c => ChatConnection.machine.Reachable c) (starts s.log) s.conns := by
    refine h.invariant (I := fun s => List.Forall₂ (fun _ c => ChatConnection.machine.Reachable c)
      (starts s.log) s.conns) ?_ ?_
    · rintro s rfl
      exact List.Forall₂.nil
    · intro s a t hs ha
      refine conns_step (step_cases ha) hs (fun x inl => welcome_reachable x.1 x.2 inl) ?_ ?_
      · intro expired inl _
        exact stopAll_forall expired hs fun _ c hreach => hreach.step (a := .stop inl) rfl
      · intro i b c d _ _ _ hd _ hreach
        exact hreach.step hd
  obtain ⟨_,-,hreach⟩ := forall₂_get hall hc
  exact hreach

/-- The accept loop cannot start another connection: it has ended or ends with its next turn. -/
def Loop.barred : Loop → Bool
  | .accepting .pending => false
  | .accepting (.done (.ok (.ok _))) => false
  | _ => true

/-- No stop runs while a successful accept waits to resume the accept loop. -/
def uncrossed (s : State) : Action → Bool
  | .handleStop _ _ =>
    match s.loop with
    | .accepting (.done (.ok (.ok _))) => false
    | _ => true
  | _ => true

/-- No connection is started after a stop, and none is left in the cache. -/
def QuietAfterStop (s : State) : Prop :=
  (∀ before visitors ep after, s.log = before ++ .started visitors ep :: after → .stopped ∉ before) ∧
    (.stopped ∈ s.log → s.connections = [])

structure Barred (s : State) : Prop where
  ec : .stopped ∈ s.log → s.ec.isSome = true
  loop : .stopped ∈ s.log → s.loop.barred = true
  connections : .stopped ∈ s.log → s.connections = []
  order : Chronicle (fun before e => e ≠ .stopped → .stopped ∉ before) s.log

theorem barred_turn {s : State} (h : Barred s) : Barred s.turn := by
  refine ⟨by simpa using h.ec,fun hs => ?_,by simpa using h.connections,by simpa using h.order⟩
  simp [State.turn,h.ec (by simpa using hs),Loop.barred]

theorem barred_cancel {loop : Loop} (h : ∀ ep, loop ≠ .accepting (.done (.ok (.ok ep)))) :
    loop.cancel.barred = true := by
  match loop with
  | .accepting (.done (.ok (.ok ep))) => exact absurd rfl (h ep)
  | .accepting (.done (.ok (.error e))) => rfl
  | .accepting (.done (.error e)) => rfl
  | .accepting .pending => rfl
  | .accepting .cancelled => rfl
  | .notStarted => rfl
  | .returned => rfl
  | .threw e => rfl

theorem barred_step {s t : State} {a : Action} (h : Barred s) (hok : uncrossed s a = true) (hstep : Step s a t) :
    Barred t := by
  cases hstep with
  | start hl => exact barred_turn h
  | turned result inl hl => exact barred_turn h
  | threw result e inl hl => exact ⟨h.ec,fun _ => rfl,h.connections,h.order⟩
  | stop => exact ⟨h.ec,h.loop,h.connections,h.order⟩
  | connection i b c d hcall hc hd => exact ⟨h.ec,h.loop,h.connections,h.order⟩
  | acceptCompletes status result hl hst =>
    refine ⟨h.ec,fun hs => ?_,h.connections,h.order⟩
    have hbarred := h.loop hs
    rcases hst with rfl | ⟨rfl,hfailed⟩
    · simp [hl,Loop.barred] at hbarred
    · cases result with
      | ok r => simp [acceptFailed] at hfailed
      | error e => rfl
  | accepted ep inl hl =>
    -- The accept succeeded and the loop goes on, so no stop has run.
    have hnot : .stopped ∉ s.log := by
      intro hs
      simpa [hl,Loop.barred] using h.loop hs
    refine barred_turn ⟨?_,?_,?_,h.order.snoc fun _ => hnot⟩
    all_goals simp [State.startConnection,hnot]
  | handleStop expired inl =>
    refine ⟨fun _ => rfl,fun _ => barred_cancel fun ep hl => ?_,fun _ => rfl,h.order.snoc (by simp)⟩
    simp only at hl
    simp [uncrossed,hl] at hok

/-- No connection starts after the server was stopped, in every run in which no stop crosses a
successful accept. -/
theorem no_start_after_stop {s : State} (h : (machine.restrict uncrossed).Reachable s) : QuietAfterStop s := by
  have hbarred : Barred s := by
    refine h.invariant ?_ ?_
    · rintro s rfl
      exact ⟨by simp [State.init],by simp [State.init],by simp [State.init],Chronicle.nil⟩
    · intro s a t hs ha
      obtain ⟨hok,hstep⟩ := Machine.restrict_step_iff.mp ha
      exact barred_step hs hok (step_cases hstep)
  exact ⟨fun before visitors ep after hlog => hbarred.order before _ after hlog (by simp),hbarred.connections⟩

def visitor : Endpoint := ⟨"192.0.2.1",50000⟩

def stopWhileAccepting : List Action :=
  [.start,.acceptCompletes (.ok (.ok visitor)),.resumeAccept ⟨true,true⟩,.stop,.handleStop [] ⟨true,true⟩,
    .acceptCompletes (.error .operationAborted),.resumeAccept ⟨true,true⟩]

theorem no_start_after_stop_stopWhileAccepting :
    ∃ s, (machine.restrict uncrossed).replay State.init stopWhileAccepting = some s ∧ s.conns.length = 1 ∧
      QuietAfterStop s := by
  refine ⟨_,rfl,rfl,?_⟩
  have hrun : (machine.restrict uncrossed).replay State.init stopWhileAccepting = some _ := rfl
  exact no_start_after_stop (Machine.Reachable.of_replay rfl hrun)

def stopCrossesAccept : List Action :=
  [.start,.acceptCompletes (.ok (.ok visitor)),.stop,.handleStop [] ⟨true,true⟩,.resumeAccept ⟨true,true⟩]

theorem connection_starts_after_stop : ¬ ∀ s, machine.Reachable s → QuietAfterStop s := by
  intro h
  have hrun : machine.replay State.init stopCrossesAccept = some _ := rfl
  have hquiet := h _ (Machine.Reachable.of_replay rfl hrun)
  exact hquiet.1 [.stopped] 1 visitor [] rfl (by simp)

end ChatServer
end BeastWebsocketEcho
