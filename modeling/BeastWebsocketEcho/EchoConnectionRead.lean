import BeastWebsocketEcho.EchoConnectionSteps

/-!
# When a read is started

`handle_accept` looks at `ec_` before it starts a read; `handle_rx` looks only at the
result of its own read. So a read is started outside `chatting`, against the assertions
of `initiate_rx`, exactly when a read that succeeded is handled after `handle_stop`.
-/

namespace BeastWebsocketEcho
namespace EchoConnection

/-- What should hold when an event is logged: the assertions of `initiate_rx` do, and no read is
started after a stop. -/
def ReadOrder (before : List Event) (e : Event) : Prop :=
  e ≠ .asserted .rxChatting false ∧ e ≠ .asserted .rxNoError false ∧
    (e = .called .asyncRead → .entered .stop ∉ before)

def ReadCrossing (before : List Event) (e : Event) : Prop :=
  (∃ bytes, e = .entered (.rx (.ok bytes))) → .entered .stop ∉ before

/-- The first is kept exactly as long as the second is. -/
def ReadLaw (log : List Event) : Prop := Chronicle ReadOrder log ↔ Chronicle ReadCrossing log

theorem ReadLaw.snoc {log : List Event} {e : Event} (h : ReadLaw log) (he : ReadOrder log e ↔ ReadCrossing log e) :
    ReadLaw (log ++ [e]) := by
  unfold ReadLaw at h ⊢
  rw [Chronicle.snoc_iff,Chronicle.snoc_iff,h,he]

/-- Events that have to do neither with reads nor with stops. -/
@[mk_iff] structure Aside (e : Event) : Prop where
  stop : e ≠ .entered .stop
  rx : ∀ bytes, e ≠ .entered (.rx (.ok bytes))
  read : e ≠ .called .asyncRead
  rxChatting : e ≠ .asserted .rxChatting false
  rxNoError : e ≠ .asserted .rxNoError false

theorem ReadLaw.aside {log : List Event} {e : Event} (h : ReadLaw log) (he : Aside e) : ReadLaw (log ++ [e]) := by
  refine h.snoc (iff_of_true ⟨he.rxChatting,he.rxNoError,fun hread => absurd hread he.read⟩ ?_)
  rintro ⟨bytes,hrx⟩
  exact absurd hrx (he.rx bytes)

theorem ReadLaw.append {log : List Event} (h : ReadLaw log) (k : List Event) (hk : ∀ e ∈ k, Aside e) :
    ReadLaw (log ++ k) := append_induction h k fun _ e he hl => hl.aside (hk e he)

theorem ReadLaw.broken {log k : List Event} (h₁ : ¬ Chronicle ReadOrder log) (h₂ : ¬ Chronicle ReadCrossing log) :
    ReadLaw (log ++ k) := by
  refine iff_of_false (fun h => h₁ fun before e after hlog => ?_) (fun h => h₂ fun before e after hlog => ?_)
  · exact h before e (after ++ k) (by simp [hlog])
  · exact h before e (after ++ k) (by simp [hlog])

/-- The stage and the error tell whether the session was stopped, and reads are outstanding only after
the handshake. -/
structure Reading (s : State) : Prop where
  ec : s.ec ≠ none ↔ .entered .stop ∈ s.log
  closing : s.state = .closing ↔ .entered .stop ∈ s.log
  reads : s.reads ≠ [] → s.state ≠ .handshaking
  law : ReadLaw s.log

theorem Reading.append {s t : State} (h : Reading s) (k : List Event) (hlog : t.log = s.log ++ k)
    (hk : ∀ e ∈ k, Aside e) (hreads : t.reads ≠ [] → s.reads ≠ [])
    (hsame : (t.ec,t.state) = (s.ec,s.state)) : Reading t := by
  simp only [Prod.mk.injEq] at hsame
  obtain ⟨hec,hstate⟩ := hsame
  have hstop : .entered .stop ∈ t.log ↔ .entered .stop ∈ s.log := by
    rw [hlog,List.mem_append,or_iff_left]
    exact fun hmem => (hk _ hmem).stop rfl
  refine ⟨by rw [hec,hstop,h.ec],by rw [hstate,hstop,h.closing],fun hr => ?_,by rw [hlog]; exact h.law.append k hk⟩
  rw [hstate]
  exact h.reads (hreads hr)

theorem Reading.beside {s t : State} (h : Reading s) (hst : Beside s t) : Reading t := by
  obtain ⟨k,hlog,hk⟩ := hst.log
  refine h.append k hlog (fun e he => ?_) (by rw [hst.reads]; exact id)
    (by rw [hst.ec,hst.state])
  cases hk e he with
  | asserted a holds ha => rcases ha with rfl | rfl | rfl <;> simp [aside_iff]
  | _ => simp [aside_iff]

/-- A read that is started while chatting keeps the assertions. -/
theorem reading_initiateRx {s : State} (h : Reading s) (hchat : s.state = .chatting) : Reading s.initiateRx := by
  have hnot : .entered .stop ∉ s.log := by
    rw [← h.closing,hchat]
    decide
  have hec : s.ec = none := by
    by_contra hne
    exact hnot (h.ec.mp hne)
  have hlaw : ReadLaw (s.log ++ [Event.asserted .rxChatting true] ++ [Event.asserted .rxNoError true] ++
      [Event.called .asyncRead]) := by
    refine ((h.law.aside (by simp [aside_iff])).aside (by simp [aside_iff])).snoc (iff_of_true ?_ ?_)
    · simp [ReadOrder,hnot]
    · simp [ReadCrossing]
  rw [initiateRx_eq]
  refine ⟨?_,?_,fun _ => ?_,?_⟩
  · simpa using h.ec
  · simpa using h.closing
  · simp [hchat]
  · simpa [hchat,hec] using hlaw

theorem Reading.frame {s t : State} (h : Reading s) (hreads : t.reads ≠ [] → s.reads ≠ [])
    (hsame : (t.ec,t.state,t.log) = (s.ec,s.state,s.log)) : Reading t := by
  simp only [Prod.mk.injEq] at hsame
  obtain ⟨hec,hstate,hlog⟩ := hsame
  exact h.append [] (by simpa using hlog) (by simp) hreads (by rw [hec,hstate])

theorem reading_initiateTimer {s : State} (h : Reading s) : Reading s.initiateTimer := by
  rw [initiateTimer_eq]
  exact h.append _ rfl (by simp [aside_iff]) id rfl

theorem reading_handleStop {s : State} (h : Reading s) (reason : CloseReason) : Reading (s.handleStop reason) := by
  have hlaw : ReadLaw (s.log ++ [Event.entered .stop] ++ [Event.called .cancelTimer]) :=
    (h.law.snoc (by simp [ReadOrder,ReadCrossing])).aside (by simp [aside_iff])
  rcases handleStop_cases s reason with ⟨-,hstop⟩ | ⟨-,hstop⟩ | ⟨-,hstop⟩
  · rw [hstop]
    refine ⟨?_,?_,fun _ => by simp,hlaw.aside (by simp [aside_iff])⟩ <;> simp [State.call,State.perform,State.emit]
  · rw [hstop]
    refine ⟨?_,?_,fun _ => by simp,hlaw.aside (by simp [aside_iff])⟩ <;> simp [State.call,State.perform,State.emit]
  · rw [hstop]
    refine ⟨?_,?_,fun _ => by simp,hlaw⟩ <;> simp [State.call,State.perform,State.emit]

theorem reading_accepted {s : State} (h : Reading s) (ec : ErrorCode) : Reading (s.accepted ec) := by
  have hentered : Reading (s.emit (.entered (.accept ec))) :=
    h.append [.entered (.accept ec)] rfl (by simp [aside_iff]) id rfl
  rcases accepted_cases s ec with ⟨-,hsame⟩ | ⟨hec,rfl,hchats⟩
  · rw [hsame]
    exact hentered
  · have hnot : .entered .stop ∉ s.log := fun hmem => h.ec.mpr hmem hec
    have hchatting : Reading { s.emit (.entered (.accept none)) with state := .chatting } := by
      refine ⟨hentered.ec,iff_of_false (by simp) ?_,fun _ => by simp,hentered.law⟩
      simpa [State.emit] using hnot
    rw [hchats]
    exact (reading_initiateRx hchatting rfl).beside (beside_maybeSendNext _)

/-- A read that succeeded before any stop finds the connection chatting; after a stop it breaks the
assertions of `initiate_rx`. -/
theorem reading_handleRx {s : State} (h : Reading s) (hreads : s.reads ≠ []) (i : ℕ)
    (r : Except Error (List Char)) (inl : Bool) :
    Reading ({ s with reads := s.reads.eraseIdx i }.handleRx r inl) := by
  have hsub : s.reads.eraseIdx i ≠ [] → s.reads ≠ [] := fun _ => hreads
  cases r with
  | error e => exact h.append [.entered (.rx (.error e))] rfl (by simp [aside_iff]) hsub rfl
  | ok bytes =>
    refine Reading.beside ?_ (beside_dispatchSend _ _ inl)
    by_cases hstop : .entered .stop ∈ s.log
    · -- `ec_` is set and the stage is `closing`: the assertions fail, and a read is started.
      have hclosing := h.closing.mpr hstop
      have hne : (Stage.closing == Stage.chatting) = false := rfl
      let bad := s.log ++ [Event.entered (.rx (.ok bytes))] ++ [Event.asserted .rxChatting false]
      have h₁ : ¬ Chronicle ReadOrder bad := by
        rw [Chronicle.snoc_iff]
        simp [ReadOrder]
      have h₂ : ¬ Chronicle ReadCrossing bad := by
        rw [Chronicle.snoc_iff,Chronicle.snoc_iff]
        simp [ReadCrossing,hstop]
      have hlaw := ReadLaw.broken h₁ h₂ (k := [.asserted .rxNoError s.ec.isNone,.called .asyncRead])
      rw [initiateRx_eq]
      refine ⟨?_,?_,fun _ => ?_,?_⟩
      · simpa [State.emit] using h.ec
      · simpa [State.emit] using h.closing
      · simp [State.emit,hclosing]
      · simpa [bad,State.emit,hclosing,hne] using hlaw
    · have hchat : s.state = .chatting := by
        have hne := h.reads hreads
        have hnot := mt h.closing.mp hstop
        cases hs : s.state <;> simp_all
      refine reading_initiateRx ⟨?_,?_,fun _ => h.reads hreads,?_⟩ hchat
      · simpa [State.emit] using h.ec
      · simpa [State.emit] using h.closing
      · exact h.law.snoc (by simp [ReadOrder,ReadCrossing,hstop])

theorem reading_handleTimer {s : State} (h : Reading s) : Reading s.handleTimer := by
  have hentered : Reading (s.emit (.entered .timer)) :=
    h.append [.entered .timer] rfl (by simp [aside_iff]) id rfl
  rcases handleTimer_cases s with ⟨-,hsame⟩ | ⟨-,-,hgoes⟩ | ⟨-,-,hstop⟩
  · rw [hsame]
    exact hentered
  · rw [hgoes]
    exact reading_initiateTimer (hentered.beside (beside_handleSend _ _))
  · rw [hstop]
    exact reading_handleStop hentered _

theorem reading_step {s t : State} (h : Reading s) (hstep : Step s t) : Reading t := by
  cases hstep with
  | readCompletes reads hr => exact h.frame (mt hr.mpr) rfl
  | run i hi =>
    have hentered : Reading (({ s with tasks := s.tasks.eraseIdx i }.emit (.entered .run)).call .asyncAccept) :=
      h.append [.entered .run,.called .asyncAccept] (by simp [State.emit,State.call,State.perform])
        (by simp [aside_iff]) id rfl
    exact reading_initiateTimer hentered
  | stop i => exact reading_handleStop (s := { s with tasks := s.tasks.eraseIdx i }) (h.frame id rfl) _
  | send i msg =>
    exact Reading.beside (s := { s with tasks := s.tasks.eraseIdx i }) (h.frame id rfl)
      (beside_handleSend _ msg)
  | accepted i ec =>
    exact reading_accepted (s := { s with accepts := s.accepts.eraseIdx i }) (h.frame id rfl) ec
  | read i r inl hr => exact reading_handleRx h hr i r inl
  | written i m ec hw =>
    exact Reading.beside (s := { s with writes := s.writes.eraseIdx i }) (h.frame id rfl)
      (beside_handleTx _ ec)
  | waited i ec hi =>
    have hwaits : Reading { s with waits := s.waits.eraseIdx i } := h.frame id rfl
    unfold State.waited
    split
    · exact hwaits
    · exact reading_handleTimer hwaits
  | _ => exact h.frame id rfl

theorem reachable_reading {s : State} (h : machine.Reachable s) : Reading s := by
  refine h.invariant (I := Reading) ?_ fun s a t hs ha => reading_step hs (step_cases ha)
  rintro s rfl
  exact ⟨by simp [State.init],by simp [State.init],by simp [State.init],iff_of_true Chronicle.nil Chronicle.nil⟩

/-- Every call of `initiate_rx` was made in `chatting` and without an error, and no read was started
after a stop. -/
def ReadsWhileChatting (log : List Event) : Prop :=
  .asserted .rxChatting false ∉ log ∧ .asserted .rxNoError false ∉ log ∧
    ∀ before after, log = before ++ .called .asyncRead :: after → .entered .stop ∉ before

def ReadCrossesStop (log : List Event) : Prop :=
  ∃ before bytes after, log = before ++ .entered (.rx (.ok bytes)) :: after ∧ .entered .stop ∈ before

/-- Reads are started only while chatting, unless a read that succeeded is handled after a stop. -/
theorem reads_while_chatting_iff {s : State} (h : machine.Reachable s) :
    ReadsWhileChatting s.log ↔ ¬ ReadCrossesStop s.log := by
  have hlaw := (reachable_reading h).law
  have h₁ : ReadsWhileChatting s.log ↔ Chronicle ReadOrder s.log := by
    constructor
    · rintro ⟨hchatting,hnoError,hread⟩ before e after hlog
      refine ⟨?_,?_,?_⟩
      · rintro rfl
        simp [hlog] at hchatting
      · rintro rfl
        simp [hlog] at hnoError
      · rintro rfl
        exact hread before after hlog
    · intro horder
      refine ⟨fun hmem => ?_,fun hmem => ?_,fun before after hlog => (horder before _ after hlog).2.2 rfl⟩
      · obtain ⟨before,after,hlog⟩ := List.append_of_mem hmem
        exact (horder before _ after hlog).1 rfl
      · obtain ⟨before,after,hlog⟩ := List.append_of_mem hmem
        exact (horder before _ after hlog).2.1 rfl
  have h₂ : ¬ ReadCrossesStop s.log ↔ Chronicle ReadCrossing s.log := by
    constructor
    · rintro hnot before e after hlog ⟨bytes,rfl⟩ hstop
      exact hnot ⟨before,bytes,after,hlog,hstop⟩
    · rintro hcross ⟨before,bytes,after,hlog,hstop⟩
      exact hcross before _ after hlog ⟨bytes,rfl⟩ hstop
  rw [h₁,h₂]
  exact hlaw

/-- A message is read and echoed, and a stop comes while the next read is pending. -/
def echoThenStop : List Action :=
  [.runTask 0,.acceptCompletes 0 none,.accepted 0,.readCompletes 0 (.ok "hello".toList),.read 0 true,.stop,
    .runTask 0,.readCompletes 0 (.error .closed),.read 0 true]

theorem reads_while_chatting_echoThenStop :
    ∃ s, machine.replay State.init echoThenStop = some s ∧ started s.log = [some "hello"] ∧
      (ReadsWhileChatting s.log ↔ ¬ ReadCrossesStop s.log) := by
  have hrun : machine.replay State.init echoThenStop = some _ := rfl
  exact ⟨_,hrun,rfl,reads_while_chatting_iff (Machine.Reachable.of_replay rfl hrun)⟩

/-- A read has succeeded, and its completion is still queued when `handle_stop` runs. -/
def readCrossesStop : List Action :=
  [.runTask 0,.acceptCompletes 0 none,.accepted 0,.readCompletes 0 (.ok "hello".toList),.stop,.runTask 0,
    .read 0 true]

theorem read_starts_after_stop : ¬ ∀ s, machine.Reachable s → ReadsWhileChatting s.log := by
  intro h
  have hrun : machine.replay State.init readCrossesStop = some _ := rfl
  have hchatting := (h _ (Machine.Reachable.of_replay rfl hrun)).1
  exact hchatting (by decide)

end EchoConnection
end BeastWebsocketEcho
