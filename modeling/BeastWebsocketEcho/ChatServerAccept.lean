import BeastWebsocketEcho.ChatServerRuns

/-!
# Clients that are gone before they are served

The accept loop of the chat server asks every accepted socket for its peer. The acceptor is
taken to report nothing but successes and `connection_aborted` until the server is stopped;
the query may fail with any error.
-/

namespace BeastWebsocketEcho
namespace ChatServer

def Loop.running : Loop → Bool
  | .notStarted | .accepting _ => true
  | _ => false

/-- Until the server is stopped the acceptor reports successes and `connection_aborted` only. -/
def sound (s : State) : Action → Bool
  | .acceptCompletes (.error e) => e == .connectionAborted || s.ec.isSome
  | _ => true

/-- The query for the peer of an accepted socket, if it fails before the server is stopped, reports
`connection_aborted`. -/
def aborts (s : State) : Action → Bool
  | .resumeAccept _ =>
    match s.loop with
    | .accepting (.done (.ok (.error e))) => e == .connectionAborted || s.ec.isSome
    | _ => true
  | _ => true

/-- No step ends `handle_run` before `handle_stop` has run. An accept that completes takes it back to the next accept
and leaves the connections that were started as they are. -/
structure Survives (s : State) (a : Action) (t : State) : Prop where
  running : .stopped ∉ t.log → s.loop.running = true → t.loop.running = true
  waits : .stopped ∉ t.log → ∀ inl, a = .resumeAccept inl → ∃ new, t.loop = .accepting .pending ∧
    t.conns = s.conns ++ new

structure Reports (s : State) : Prop where
  ec : s.ec.isSome = true ↔ .stopped ∈ s.log
  failure : ∀ e, s.loop = .accepting (.done (.error e)) → e = .connectionAborted ∨ .stopped ∈ s.log

theorem Reports.ec_none {s : State} (h : Reports s) (hnot : .stopped ∉ s.log) : s.ec.isSome = false :=
  Bool.eq_false_iff.mpr fun hs => hnot (h.ec.mp hs)

theorem turn_loop (s : State) : s.turn.loop = if s.ec.isSome then .returned else .accepting .pending := by
  unfold State.turn
  split <;> rfl

theorem reports_turn {s : State} (h : s.ec.isSome = true ↔ .stopped ∈ s.log) : Reports s.turn := by
  refine ⟨by simpa using h,fun e he => ?_⟩
  rw [turn_loop] at he
  split at he <;> simp at he

theorem reports_step {s t : State} {a : Action} (h : Reports s) (hsound : sound s a = true) (hstep : Step s a t) :
    Reports t := by
  cases hstep with
  | start hl => exact reports_turn h.ec
  | turned result inl hl => exact reports_turn h.ec
  | accepted ep inl hl =>
    refine reports_turn ?_
    simpa [State.startConnection] using h.ec
  | threw result e inl hl => exact ⟨h.ec,by simp⟩
  | stop => exact ⟨h.ec,h.failure⟩
  | connection i b c d hcall hc hd => exact ⟨h.ec,h.failure⟩
  | handleStop expired inl => exact ⟨by simp [State.handleStop],by simp [State.handleStop]⟩
  | acceptCompletes status result hl hst =>
    refine ⟨h.ec,fun e he => ?_⟩
    obtain rfl : result = .error e := by simpa using he
    rw [← h.ec]
    simpa [sound] using hsound

theorem caught_loop {s : State} {e : Error} (hec : s.ec.isSome = false) :
    (s.caught e).loop = if e = .connectionAborted then .accepting .pending else .threw e := by
  unfold State.caught
  split
  · simp [turn_loop,hec]
  · rfl

/-- What the body of the accept loop comes to while the server is not stopped. -/
theorem accepted_running {s : State} {result : AcceptResult} {inl : ChatConnection.Inline} (hec : s.ec.isSome = false)
    (hresult : ∀ e, result = .error e ∨ result = .ok (.error e) → e = .connectionAborted) :
    (s.accepted result inl).loop = .accepting .pending := by
  match result with
  | .error e => simp [State.accepted,caught_loop hec,hresult e (Or.inl rfl)]
  | .ok (.error e) => simp [State.accepted,caught_loop hec,hresult e (Or.inr rfl)]
  | .ok (.ok ep) => simp [State.accepted,turn_loop,State.startConnection,hec]

theorem accepted_conns (s : State) (result : AcceptResult) (inl : ChatConnection.Inline) :
    ∃ new, (s.accepted result inl).conns = s.conns ++ new := by
  have hcaught : ∀ e, (s.caught e).conns = s.conns := by
    intro e
    unfold State.caught
    split <;> simp
  match result with
  | .error e => exact ⟨[],by simp [State.accepted,hcaught]⟩
  | .ok (.error e) => exact ⟨[],by simp [State.accepted,hcaught]⟩
  | .ok (.ok ep) =>
    refine ⟨[welcome (assign s.connections ep s.conns.length).length ep inl],?_⟩
    simp [State.accepted,State.startConnection]

theorem accepted_stopped {s : State} {result : AcceptResult} {inl : ChatConnection.Inline}
    (h : .stopped ∉ (s.accepted result inl).log) : .stopped ∉ s.log := by
  have hcaught : ∀ e, (s.caught e).log = s.log := by
    intro e
    unfold State.caught
    split <;> simp
  match result with
  | .error e => simpa [State.accepted,hcaught] using h
  | .ok (.error e) => simpa [State.accepted,hcaught] using h
  | .ok (.ok ep) => simpa [State.accepted,State.startConnection] using h

/-- An accept that completes before the server is stopped keeps `handle_run` going exactly if the query aborts. -/
theorem survives_resumeAccept {s t : State} {inl : ChatConnection.Inline} (h : Reports s)
    (hstep : step s (.resumeAccept inl) = some t) :
    Survives s (.resumeAccept inl) t ↔ aborts s (.resumeAccept inl) = true := by
  simp only [step] at hstep
  split at hstep
  · next result hl =>
    obtain rfl := Option.some.inj hstep
    constructor
    · intro hsurvives
      cases result with
      | error e => simp [aborts,hl]
      | ok peer =>
        cases peer with
        | ok ep => simp [aborts,hl]
        | error e =>
          by_cases hec : s.ec.isSome = true
          · simp [aborts,hl,hec]
          · have hlog : .stopped ∉ (s.accepted (.ok (.error e)) inl).log := by
              have hnot : .stopped ∉ s.log := fun hs => hec (h.ec.mpr hs)
              simp only [State.accepted,State.caught]
              split <;> simpa using hnot
            obtain ⟨new,hwaits,-⟩ := hsurvives.waits hlog inl rfl
            have hloop := caught_loop (s := s) (e := e) (by simpa using hec)
            by_cases he : e = .connectionAborted
            · simp [aborts,hl,he]
            · rw [if_neg he] at hloop
              simp [State.accepted,hloop] at hwaits
    · intro hok
      have hwaits : .stopped ∉ (s.accepted result inl).log → (s.accepted result inl).loop = .accepting .pending := by
        intro hlog
        have hnot := accepted_stopped hlog
        have hec := h.ec_none hnot
        refine accepted_running hec fun e he => ?_
        rcases he with rfl | rfl
        · rcases h.failure e hl with he | hs
          · exact he
          · exact absurd hs hnot
        · simpa [aborts,hl,hec] using hok
      refine ⟨fun hlog _ => by simp [hwaits hlog,Loop.running],fun hlog _ _ => ?_⟩
      obtain ⟨new,hconns⟩ := accepted_conns s result inl
      exact ⟨new,hwaits hlog,hconns⟩
  · cases hstep

theorem survives_iff {s t : State} {a : Action} (h : Reports s) (hstep : step s a = some t) :
    Survives s a t ↔ aborts s a = true := by
  have hother : (∀ inl, a ≠ .resumeAccept inl) →
      (.stopped ∉ t.log → s.loop.running = true → t.loop.running = true) → (Survives s a t ↔ aborts s a = true) := by
    intro hne hrunning
    refine iff_of_true ⟨hrunning,fun _ inl ha => absurd ha (hne inl)⟩ ?_
    cases a with
    | resumeAccept inl => exact absurd rfl (hne inl)
    | _ => rfl
  cases step_cases hstep with
  | turned result inl hl => exact survives_resumeAccept h hstep
  | threw result e inl hl => exact survives_resumeAccept h hstep
  | accepted ep inl hl => exact survives_resumeAccept h hstep
  | start hl =>
    refine hother (by simp) fun hlog _ => ?_
    have hec := h.ec_none (by simpa using hlog)
    simp [turn_loop,hec,Loop.running]
  | acceptCompletes status result hl hst => exact hother (by simp) fun _ _ => rfl
  | stop => exact hother (by simp) fun _ hrunning => hrunning
  | connection i b c d hcall hc hd => exact hother (by simp) fun _ hrunning => hrunning
  | handleStop expired inl => exact hother (by simp) fun hlog => absurd (by simp [State.handleStop]) hlog

/-- The accept loop survives its clients in exactly those runs in which every query that fails before the server is
stopped reports `connection_aborted`. -/
theorem accepts_until_stopped_iff {as : List Action} {t : State} (h : (machine.restrict sound).Exec State.init as t) :
    (machine.restrict sound).Along Survives State.init as ↔
      ((machine.restrict sound).restrict aborts).Exec State.init as t := by
  refine h.along_iff (I := Reports) ?_ ?_ ⟨by simp [State.init],by simp [State.init]⟩
  · intro s a u hs ha
    obtain ⟨hsound,hstep⟩ := Machine.restrict_step_iff.mp ha
    exact reports_step hs hsound (step_cases hstep)
  · intro s a u hs ha
    exact survives_iff hs (Machine.restrict_step_iff.mp ha).2

/-- A client that is served, one whose connection was aborted, and one that is aborted before it is served. -/
def abortedClients : List Action :=
  [.start,.acceptCompletes (.ok (.ok visitor)),.resumeAccept ⟨true,true⟩,.acceptCompletes (.error .connectionAborted),
    .resumeAccept ⟨true,true⟩,.acceptCompletes (.ok (.error .connectionAborted)),.resumeAccept ⟨true,true⟩]

theorem accepts_until_stopped_abortedClients :
    ∃ t, (machine.restrict sound).Along Survives State.init abortedClients ∧
      ((machine.restrict sound).restrict aborts).Exec State.init abortedClients t := by
  have hrun : ((machine.restrict sound).restrict aborts).replay State.init abortedClients = some _ := rfl
  have hsound : (machine.restrict sound).replay State.init abortedClients = some _ := rfl
  have hexec := Machine.Exec.of_replay hrun
  exact ⟨_,(accepts_until_stopped_iff (Machine.Exec.of_replay hsound)).mpr hexec,hexec⟩

/-- A client that is gone when the server asks for its endpoint: the socket is not connected any more. -/
def goneClient : List Action :=
  [.start,.acceptCompletes (.ok (.error (.other 107))),.resumeAccept ⟨true,true⟩]

theorem accept_loop_ends : ¬ ∀ as t, (machine.restrict sound).Exec State.init as t →
    (machine.restrict sound).Along Survives State.init as := by
  intro h
  have hrun : (machine.restrict sound).replay State.init goneClient = some _ := rfl
  obtain ⟨-,haccept⟩ := h goneClient _ (Machine.Exec.of_replay hrun) _ rfl
  obtain ⟨-,hresume⟩ := haccept _ rfl
  obtain ⟨hsurvives,-⟩ := hresume _ rfl
  obtain ⟨new,hwaits,-⟩ := hsurvives.waits (by simp [State.accepted,State.caught,State.turn,State.init]) _ rfl
  simp [State.accepted,State.caught] at hwaits

end ChatServer
end BeastWebsocketEcho
