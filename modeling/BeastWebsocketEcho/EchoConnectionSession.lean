import BeastWebsocketEcho.EchoConnectionSteps

/-!
# How a session ends

Until the first `handle_stop` one wait on the session timer is in flight, and the time
remaining is that of the waits not yet started; the sixth time-out finds none left and
stops the session. The first `handle_stop` closes the socket or starts the close
handshake, and after it only quiet events are logged.
-/

namespace BeastWebsocketEcho
namespace EchoConnection

/-- The runs that begin with `handle_run`. -/
def session : Machine State Action where
  start s := step State.init (.runTask 0) = some s
  step := step

theorem isCloseSocket_iff {e : Event} : e.isCloseSocket = true ↔ e = .called .closeSocket := by
  cases e with
  | called c => cases c <;> simp
  | _ => simp

theorem isAsyncClose_iff {e : Event} : e.isAsyncClose = true ↔ ∃ reason, e = .called (.asyncClose reason) := by
  cases e with
  | called c => cases c <;> simp
  | _ => simp

@[mk_iff] structure Plain (e : Event) : Prop where
  stop : e ≠ .entered .stop
  accepted : e ≠ .entered (.accept none)
  closeSocket : e ≠ .called .closeSocket
  asyncClose : ∀ reason, e ≠ .called (.asyncClose reason)
  asserted : e ≠ .asserted .timeRemaining false

@[mk_iff] structure Quiet (e : Event) : Prop where
  closeSocket : e ≠ .called .closeSocket
  asyncClose : ∀ reason, e ≠ .called (.asyncClose reason)
  asyncWait : e ≠ .called .asyncWait
  asyncWrite : ∀ msg, e ≠ .called (.asyncWrite msg)
  asserted : e ≠ .asserted .timeRemaining false

theorem Sending.plain {ec : ErrorCode} {e : Event} (h : Sending ec e) : Plain e ∧ e.isTimer = false := by
  cases h with
  | asserted a holds ha => rcases ha with rfl | rfl | rfl <;> simp [plain_iff]
  | _ => simp [plain_iff]

theorem Sending.quiet {ec : ErrorCode} {e : Event} (h : Sending ec e) (hec : ec ≠ none) : Quiet e := by
  cases h with
  | asserted a holds ha => rcases ha with rfl | rfl | rfl <;> simp [quiet_iff]
  | write msg hnone => exact absurd hnone hec
  | _ => simp [quiet_iff]

structure Open (log : List Event) : Prop where
  stop : .entered .stop ∉ log
  asserted : .asserted .timeRemaining false ∉ log
  socketCloses : socketCloses log = 0
  websocketCloses : websocketCloses log = 0

theorem Open.snoc {log : List Event} (h : Open log) {e : Event} (he : Plain e ∨ e = .entered (.accept none)) :
    Open (log ++ [e]) := by
  rcases he with he | rfl
  · have hsocket : e.isCloseSocket = false := by
      rw [← Bool.not_eq_true,isCloseSocket_iff]
      exact he.closeSocket
    have hwebsocket : e.isAsyncClose = false := by
      rw [← Bool.not_eq_true,isAsyncClose_iff]
      rintro ⟨reason,hclose⟩
      exact he.asyncClose reason hclose
    refine ⟨?_,?_,?_,?_⟩
    · simp [h.stop,he.stop.symm]
    · simp [h.asserted,he.asserted.symm]
    · rw [socketCloses_append,socketCloses_cons,hsocket,h.socketCloses]
      simp
    · rw [websocketCloses_append,websocketCloses_cons,hwebsocket,h.websocketCloses]
      simp
  · refine ⟨?_,?_,?_,?_⟩
    · simp [h.stop]
    · simp [h.asserted]
    · simp [h.socketCloses]
    · simp [h.websocketCloses]

theorem Open.append {log : List Event} (h : Open log) (k : List Event) (hk : ∀ e ∈ k, Plain e) :
    Open (log ++ k) := append_induction h k fun _ e he hl => hl.snoc (Or.inl (hk e he))

/-- The session was not stopped, and chats as soon as a successful handshake was handled. -/
structure Running (s : State) : Prop where
  ec : s.ec = none
  stage : s.state = if .entered (.accept none) ∈ s.log then .chatting else .handshaking
  log : Open s.log

theorem Running.append {s t : State} (h : Running s) (k : List Event) (hlog : t.log = s.log ++ k)
    (hk : ∀ e ∈ k, Plain e) (hsame : (t.ec,t.state) = (s.ec,s.state)) : Running t := by
  simp only [Prod.mk.injEq] at hsame
  obtain ⟨hec,hstate⟩ := hsame
  have hchats : .entered (.accept none) ∈ t.log ↔ .entered (.accept none) ∈ s.log := by
    rw [hlog,List.mem_append,or_iff_left]
    exact fun hmem => (hk _ hmem).accepted rfl
  refine ⟨hec.trans h.ec,?_,by rw [hlog]; exact h.log.append k hk⟩
  rw [hstate,h.stage]
  simp only [hchats]

theorem Running.beside {s t : State} (h : Running s) (hst : Beside s t) : Running t := by
  obtain ⟨k,hlog,hk⟩ := hst.log
  exact h.append k hlog (fun e he => (hk e he).plain.1) (by rw [hst.ec,hst.state])

/-- One wait is in flight, and the time remaining is that of the waits to come. -/
structure Clock (s : State) : Prop where
  waits : s.waits = [.pending] ∨ s.waits = [.done none]
  timeRemaining : s.timeRemaining = 25 - 5 * timers s.log
  ticks : timers s.log ≤ 5

theorem Clock.frame {s t : State} (h : Clock s) (htimers : timers t.log = timers s.log)
    (hsame : (t.waits,t.timeRemaining) = (s.waits,s.timeRemaining)) : Clock t := by
  simp only [Prod.mk.injEq] at hsame
  obtain ⟨hwaits,htime⟩ := hsame
  refine ⟨?_,?_,?_⟩
  · rw [hwaits]
    exact h.waits
  · rw [htime,htimers,h.timeRemaining]
  · rw [htimers]
    exact h.ticks

theorem timers_eq_zero {k : List Event} (hk : ∀ e ∈ k, e.isTimer = false) : timers k = 0 := by
  refine List.countP_eq_zero.mpr fun e he => ?_
  rw [hk e he]
  decide

theorem timers_beside {s t : State} (h : Beside s t) : timers t.log = timers s.log := by
  obtain ⟨k,hlog,hk⟩ := h.log
  have hnone : timers k = 0 := timers_eq_zero fun e he => (hk e he).plain.2
  rw [hlog,timers_append,hnone,Nat.add_zero]

theorem Clock.beside {s t : State} (h : Clock s) (hst : Beside s t) : Clock t :=
  h.frame (timers_beside hst) (by rw [hst.waits,hst.timeRemaining])

/-- The only wait was handled, and time remains for the next one. -/
structure Unarmed (s : State) : Prop where
  waits : s.waits = []
  timeRemaining : s.timeRemaining = 30 - 5 * timers s.log
  ticks : timers s.log ≤ 5

theorem clock_initiateTimer {s : State} (h : Unarmed s) : Clock s.initiateTimer := by
  have htime := h.timeRemaining
  have hticks := h.ticks
  rw [initiateTimer_eq]
  refine ⟨Or.inl ?_,?_,?_⟩
  · simp [h.waits]
  · simp only [timers_append]
    simp
    omega
  · simpa using hticks

theorem running_initiateTimer {s : State} (h : Running s) (hs : Unarmed s) : Running s.initiateTimer := by
  have hne : (s.timeRemaining != 0) = true := by
    have htime := hs.timeRemaining
    have hticks := hs.ticks
    simp only [bne_iff_ne,ne_eq]
    omega
  rw [initiateTimer_eq]
  exact h.append _ rfl (by simp [plain_iff,hne]) rfl

/-- The close that `handle_stop` issues after what was logged before it. -/
def ClosesWith (before : List Event) (c : Call) : Prop :=
  if .entered (.accept none) ∈ before then ∃ reason, c = .asyncClose reason else c = .closeSocket

/-- The session was stopped once or more, and the first stop issued the only close. -/
structure Closed (s : State) : Prop where
  ec : s.ec ≠ none
  state : s.state = .closing
  timeRemaining : 0 ≤ s.timeRemaining
  log : ∃ before c k, s.log = before ++ [.entered .stop,.called .cancelTimer,.called c] ++ k ∧
    Open before ∧ ClosesWith before c ∧ ∀ e ∈ k, Quiet e

theorem Closed.stopped {s : State} (h : Closed s) : .entered .stop ∈ s.log := by
  obtain ⟨before,c,k,hlog,-⟩ := h.log
  simp [hlog]

theorem Closed.asserted {s : State} (h : Closed s) : .asserted .timeRemaining false ∉ s.log := by
  obtain ⟨before,c,k,hlog,hopen,-,hk⟩ := h.log
  have hnot : .asserted .timeRemaining false ∉ k := fun hmem => (hk _ hmem).asserted rfl
  simp [hlog,hopen.asserted,hnot]

theorem Closed.append {s t : State} (h : Closed s) (l : List Event) (hlog : t.log = s.log ++ l)
    (hl : ∀ e ∈ l, Quiet e) (hec : t.ec ≠ none)
    (hsame : (t.state,t.timeRemaining) = (s.state,s.timeRemaining)) : Closed t := by
  simp only [Prod.mk.injEq] at hsame
  obtain ⟨hstate,htime⟩ := hsame
  obtain ⟨before,c,k,hs,hopen,hc,hk⟩ := h.log
  refine ⟨hec,hstate.trans h.state,by rw [htime]; exact h.timeRemaining,before,c,k ++ l,?_,hopen,hc,?_⟩
  · rw [hlog,hs,List.append_assoc _ k l]
  · intro e he
    rcases List.mem_append.mp he with he | he
    · exact hk e he
    · exact hl e he

theorem Closed.beside {s t : State} (h : Closed s) (hst : Beside s t) : Closed t := by
  obtain ⟨k,hlog,hk⟩ := hst.log
  have hec : t.ec ≠ none := by
    rw [hst.ec]
    exact h.ec
  exact h.append k hlog (fun e he => (hk e he).quiet h.ec) hec
    (by rw [hst.state,hst.timeRemaining])

/-- The first stop closes what the handshake has made of the connection. -/
theorem Running.handleStop {s : State} (h : Running s) (htime : 0 ≤ s.timeRemaining) (reason : CloseReason) :
    Closed (s.handleStop reason) := by
  have hstage := h.stage
  by_cases hchats : .entered (.accept none) ∈ s.log
  · rw [if_pos hchats] at hstage
    rcases handleStop_cases s reason with ⟨hs,-⟩ | ⟨-,hstop⟩ | ⟨hs,-⟩
    · simp [hstage] at hs
    · rw [hstop]
      refine ⟨by simp [State.call,State.perform,State.emit],rfl,htime,s.log,.asyncClose reason,[],?_,h.log,?_,by simp⟩
      · simp [State.call,State.perform,State.emit]
      · rw [ClosesWith,if_pos hchats]
        exact ⟨reason,rfl⟩
    · simp [hstage] at hs
  · rw [if_neg hchats] at hstage
    rcases handleStop_cases s reason with ⟨-,hstop⟩ | ⟨hs,-⟩ | ⟨hs,-⟩
    · rw [hstop]
      refine ⟨by simp [State.call,State.perform,State.emit],rfl,htime,s.log,.closeSocket,[],?_,h.log,?_,by simp⟩
      · simp [State.call,State.perform,State.emit]
      · rw [ClosesWith,if_neg hchats]
    · simp [hstage] at hs
    · simp [hstage] at hs

/-- A stop of a closed session cancels the timer once more. -/
theorem Closed.handleStop {s : State} (h : Closed s) (reason : CloseReason) : Closed (s.handleStop reason) := by
  rcases handleStop_cases s reason with ⟨hs,-⟩ | ⟨hs,-⟩ | ⟨-,hstop⟩
  · simp [h.state] at hs
  · simp [h.state] at hs
  · rw [hstop]
    refine h.append [.entered .stop,.called .cancelTimer] ?_ (by simp [quiet_iff]) ?_ (by rw [h.state]; rfl)
    · simp [State.call,State.perform,State.emit]
    · simp [State.call,State.perform,State.emit]

/-- A session runs, with its clock, or is closed. -/
def Session (s : State) : Prop := (Running s ∧ Clock s) ∨ Closed s

theorem Session.beside {s t : State} (h : Session s) (hst : Beside s t) : Session t := by
  rcases h with ⟨hrun,hclock⟩ | hclosed
  · exact Or.inl ⟨hrun.beside hst,hclock.beside hst⟩
  · exact Or.inr (hclosed.beside hst)

theorem Session.append {s t : State} (h : Session s) (k : List Event) (hlog : t.log = s.log ++ k)
    (hk : ∀ e ∈ k, Plain e ∧ Quiet e ∧ e.isTimer = false)
    (hsame : (t.ec,t.state,t.timeRemaining,t.waits) = (s.ec,s.state,s.timeRemaining,s.waits)) : Session t := by
  simp only [Prod.mk.injEq] at hsame
  obtain ⟨hec,hstate,htime,hwaits⟩ := hsame
  rcases h with ⟨hrun,hclock⟩ | hclosed
  · refine Or.inl ⟨hrun.append k hlog (fun e he => (hk e he).1) (by rw [hec,hstate]),
      hclock.frame ?_ (by rw [hwaits,htime])⟩
    have hnone : timers k = 0 := timers_eq_zero fun e he => (hk e he).2.2
    rw [hlog,timers_append,hnone,Nat.add_zero]
  · have hec' : t.ec ≠ none := by
      rw [hec]
      exact hclosed.ec
    exact Or.inr (hclosed.append k hlog (fun e he => (hk e he).2.1) hec' (by rw [hstate,htime]))

theorem Session.frame {s t : State} (h : Session s) (hlog : t.log = s.log)
    (hsame : (t.ec,t.state,t.timeRemaining,t.waits) = (s.ec,s.state,s.timeRemaining,s.waits)) : Session t :=
  h.append [] (by simpa using hlog) (by simp) hsame

theorem Session.timeRemaining {s : State} (h : Session s) : 0 ≤ s.timeRemaining := by
  rcases h with ⟨-,hclock⟩ | hclosed
  · have htime := hclock.timeRemaining
    have hticks := hclock.ticks
    omega
  · exact hclosed.timeRemaining

theorem session_initiateRx {s : State} (h : Session s) : Session s.initiateRx := by
  rw [initiateRx_eq]
  exact h.append _ rfl (by simp [plain_iff,quiet_iff]) rfl

theorem session_handleStop {s : State} (h : Session s) (reason : CloseReason) : Session (s.handleStop reason) := by
  have htime := h.timeRemaining
  rcases h with ⟨hrun,-⟩ | hclosed
  · exact Or.inr (hrun.handleStop htime reason)
  · exact Or.inr (hclosed.handleStop reason)

theorem session_accepted {s : State} (h : Session s) (ec : ErrorCode) : Session (s.accepted ec) := by
  rcases h with ⟨hrun,hclock⟩ | hclosed
  · rcases accepted_cases s ec with ⟨hec,hsame⟩ | ⟨-,rfl,hchats⟩
    · rw [hsame]
      have hfailed : Plain (.entered (.accept ec)) := by
        cases ec with
        | some e => simp [plain_iff]
        | none => simp [hrun.ec] at hec
      refine Or.inl ⟨hrun.append [.entered (.accept ec)] rfl (by simp [hfailed]) rfl,hclock.frame ?_ rfl⟩
      simp [State.emit]
    · rw [hchats]
      have hlog : Open (s.log ++ [Event.entered (.accept none)]) := hrun.log.snoc (Or.inr rfl)
      have hchatting : Running { s.emit (.entered (.accept none)) with state := .chatting } :=
        ⟨hrun.ec,by simp [State.emit],hlog⟩
      have hticks : Clock { s.emit (.entered (.accept none)) with state := .chatting } :=
        hclock.frame (by simp [State.emit]) rfl
      exact (session_initiateRx (Or.inl ⟨hchatting,hticks⟩)).beside (beside_maybeSendNext _)
  · rcases accepted_cases s ec with ⟨-,hsame⟩ | ⟨hec,-,-⟩
    · rw [hsame]
      exact Or.inr (hclosed.append [.entered (.accept ec)] rfl (by simp [quiet_iff]) hclosed.ec rfl)
    · exact absurd hec hclosed.ec

theorem session_handleRx {s : State} (h : Session s) (r : Except Error (List Char)) (inl : Bool) :
    Session (s.handleRx r inl) := by
  have hentered : ∀ buffer, Session { s.emit (.entered (.rx r)) with rxbuffer := buffer } :=
    fun buffer => h.append [.entered (.rx r)] rfl (by simp [plain_iff,quiet_iff]) rfl
  cases r with
  | error e => exact hentered s.rxbuffer
  | ok bytes => exact (session_initiateRx (hentered _)).beside (beside_dispatchSend _ _ inl)

/-- A wait that succeeded was the only one: the next is started, or the session is stopped. -/
theorem session_handleTimer {s : State} (hrun : Running s) (hclock : Clock s) :
    Session { s with waits := [] }.handleTimer := by
  have htime := hclock.timeRemaining
  have hticks := hclock.ticks
  let u : State := { s with waits := [] }.emit (.entered .timer)
  have hu : Running u := hrun.append [.entered .timer] rfl (by simp [plain_iff]) rfl
  have htimers : timers u.log = timers s.log + 1 := by simp [u,State.emit]
  rcases handleTimer_cases { s with waits := [] } with ⟨hec,-⟩ | ⟨-,hleft,hgoes⟩ | ⟨-,-,hstop⟩
  · exact absurd hrun.ec hec
  · rw [hgoes]
    have hst := beside_handleSend u (toString s.timeRemaining ++ " seconds remaining")
    have htimers' := (timers_beside hst).trans htimers
    have hleft' : s.timeRemaining ≠ 0 := hleft
    have hunarmed : Unarmed (u.handleSend (toString s.timeRemaining ++ " seconds remaining")) := by
      refine ⟨hst.waits,?_,?_⟩
      · rw [hst.timeRemaining,htimers',show u.timeRemaining = s.timeRemaining from rfl]
        omega
      · omega
    exact Or.inl ⟨running_initiateTimer (hu.beside hst) hunarmed,clock_initiateTimer hunarmed⟩
  · rw [hstop]
    refine Or.inr (hu.handleStop ?_ _)
    rw [show u.timeRemaining = s.timeRemaining from rfl]
    omega

/-- The wait in flight can only complete with success, since nothing has cancelled it. -/
theorem clock_waitCompletes {s : State} (h : Clock s) {i : ℕ} {ec : ErrorCode} {st st' : Status ErrorCode}
    (hi : s.waits[i]? = some st) (hst : completeWait ec st = some st') :
    Clock { s with waits := s.waits.set i st' } := by
  rcases h.waits with hwaits | hwaits
  · refine ⟨Or.inr ?_,h.timeRemaining,h.ticks⟩
    rw [hwaits] at hi
    cases i with
    | succ i => simp at hi
    | zero =>
      obtain rfl : Status.pending = st := by simpa using hi
      cases ec with
      | some e => simp [completeWait] at hst
      | none =>
        obtain rfl : Status.done none = st' := by simpa [completeWait] using hst
        simp [hwaits]
  · rw [hwaits] at hi
    cases i with
    | succ i => simp at hi
    | zero =>
      obtain rfl : Status.done none = st := by simpa using hi
      simp [completeWait] at hst

theorem session_waited {s : State} (h : Session s) {i : ℕ} {ec : ErrorCode} (hi : s.waits[i]? = some (.done ec)) :
    Session ({ s with waits := s.waits.eraseIdx i }.waited ec) := by
  rcases h with ⟨hrun,hclock⟩ | hclosed
  · rcases hclock.waits with hwaits | hwaits
    · rw [hwaits] at hi
      cases i <;> simp at hi
    · rw [hwaits] at hi ⊢
      cases i with
      | succ i => simp at hi
      | zero =>
        obtain rfl : none = ec := by simpa using hi
        exact session_handleTimer hrun hclock
  · have hwaits : Closed { s with waits := s.waits.eraseIdx i } :=
      hclosed.append [] (by simp) (by simp) hclosed.ec rfl
    unfold State.waited
    split
    · exact Or.inr hwaits
    · rcases handleTimer_cases { s with waits := s.waits.eraseIdx i } with ⟨-,hsame⟩ | ⟨hec,-,-⟩ | ⟨hec,-,-⟩
      · rw [hsame]
        exact Or.inr (hwaits.append [.entered .timer] rfl (by simp [quiet_iff]) hwaits.ec rfl)
      · exact absurd hec hclosed.ec
      · exact absurd hec hclosed.ec

section Tasks

variable (s : State)

theorem handleStop_tasks (reason : CloseReason) : (s.handleStop reason).tasks = s.tasks := by
  rcases handleStop_cases s reason with ⟨-,hstop⟩ | ⟨-,hstop⟩ | ⟨-,hstop⟩ <;> rw [hstop] <;> rfl

theorem accepted_tasks (ec : ErrorCode) (h : .handleRun ∈ (s.accepted ec).tasks) : .handleRun ∈ s.tasks := by
  rcases accepted_cases s ec with ⟨-,hsame⟩ | ⟨-,-,hchats⟩
  · rw [hsame] at h
    exact h
  · rw [hchats] at h
    have hmem := (beside_maybeSendNext _).tasks h
    exact hmem

theorem handleRx_tasks (r : Except Error (List Char)) (inl : Bool) (h : .handleRun ∈ (s.handleRx r inl).tasks) :
    .handleRun ∈ s.tasks := by
  cases r with
  | error e => exact h
  | ok bytes =>
    have hmem := (beside_dispatchSend _ _ inl).tasks h
    exact hmem

theorem handleTimer_tasks (h : .handleRun ∈ s.handleTimer.tasks) : .handleRun ∈ s.tasks := by
  rcases handleTimer_cases s with ⟨-,hsame⟩ | ⟨-,-,hgoes⟩ | ⟨-,-,hstop⟩
  · rw [hsame] at h
    exact h
  · rw [hgoes] at h
    have hmem := (beside_handleSend _ _).tasks h
    exact hmem
  · rw [hstop,handleStop_tasks] at h
    exact h

end Tasks

/-- No handler dispatches another `handle_run`. -/
theorem handleRun_mem_step {s t : State} (hstep : Step s t) (ht : .handleRun ∈ t.tasks) : .handleRun ∈ s.tasks := by
  cases hstep with
  | call task hne =>
    rcases List.mem_append.mp ht with ht | ht
    · exact ht
    · exact absurd (List.mem_singleton.mp ht).symm hne
  | run i hi => exact List.mem_of_mem_eraseIdx ht
  | stop i =>
    rw [handleStop_tasks] at ht
    exact List.mem_of_mem_eraseIdx ht
  | send i msg =>
    have hmem := (beside_handleSend _ msg).tasks ht
    exact List.mem_of_mem_eraseIdx hmem
  | accepted i ec =>
    have hmem := accepted_tasks _ ec ht
    exact hmem
  | read i r inl hr =>
    have hmem := handleRx_tasks _ r inl ht
    exact hmem
  | written i m ec hw =>
    have hmem := (beside_handleTx _ ec).tasks ht
    exact hmem
  | waited i ec hi =>
    unfold State.waited at ht
    split at ht
    · exact ht
    · have hmem := handleTimer_tasks _ ht
      exact hmem
  | _ => exact ht

theorem session_step {s t : State} (hrun : .handleRun ∉ s.tasks) (h : Session s) (hstep : Step s t) : Session t := by
  cases hstep with
  | waitCompletes i ec st st' hi hst =>
    rcases h with ⟨hruns,hclock⟩ | hclosed
    · have hsame : Running { s with waits := s.waits.set i st' } :=
        hruns.append [] (by simp) (by simp) rfl
      exact Or.inl ⟨hsame,clock_waitCompletes hclock hi hst⟩
    · exact Or.inr (hclosed.append [] (by simp) (by simp) hclosed.ec rfl)
  | run i hi => exact absurd (List.mem_of_getElem? hi) hrun
  | stop i => exact session_handleStop (s := { s with tasks := s.tasks.eraseIdx i }) (h.frame rfl rfl) _
  | send i msg =>
    exact Session.beside (s := { s with tasks := s.tasks.eraseIdx i }) (h.frame rfl rfl)
      (beside_handleSend _ msg)
  | accepted i ec =>
    exact session_accepted (s := { s with accepts := s.accepts.eraseIdx i }) (h.frame rfl rfl) ec
  | read i r inl hr =>
    exact session_handleRx (s := { s with reads := s.reads.eraseIdx i }) (h.frame rfl rfl) r inl
  | written i m ec hw =>
    exact Session.beside (s := { s with writes := s.writes.eraseIdx i }) (h.frame rfl rfl)
      (beside_handleTx _ ec)
  | waited i ec hi => exact session_waited h hi
  | _ => exact h.frame rfl rfl

theorem session_handleRun : Session { State.init with tasks := [] }.handleRun := by
  let u : State := ({ State.init with tasks := [] }.emit (.entered .run)).call .asyncAccept
  have hrun : Running u := by
    refine ⟨rfl,rfl,?_⟩
    exact ⟨by decide,by decide,rfl,rfl⟩
  have hunarmed : Unarmed u := ⟨rfl,rfl,by decide⟩
  exact Or.inl ⟨running_initiateTimer hrun hunarmed,clock_initiateTimer hunarmed⟩

theorem reachable_session {s : State} (h : session.Reachable s) : Session s := by
  have both : .handleRun ∉ s.tasks ∧ Session s := by
    refine h.invariant (I := fun s => .handleRun ∉ s.tasks ∧ Session s) ?_ ?_
    · intro s hs
      have hstart : some { State.init with tasks := [] }.handleRun = some s := hs
      obtain rfl := Option.some.inj hstart
      exact ⟨by decide,session_handleRun⟩
    · intro s a t hs ha
      have hstep := step_cases ha
      exact ⟨fun ht => hs.1 (handleRun_mem_step hstep ht),session_step hs.1 hs.2 hstep⟩
  exact both.2

/-- Every session is a run of the connection. -/
theorem machine_of_session {s : State} (h : session.Reachable s) : machine.Reachable s := by
  refine Machine.Reachable.invariant (m := session) (I := machine.Reachable) ?_ (fun s a t hs ha => hs.step ha) h
  intro s hs
  have hinit : machine.Reachable State.init := Machine.Reachable.init rfl
  exact hinit.step (a := .runTask 0) hs

theorem quiet_closes {k : List Event} (hk : ∀ e ∈ k, Quiet e) : socketCloses k = 0 ∧ websocketCloses k = 0 := by
  constructor
  · refine List.countP_eq_zero.mpr fun e he hclose => ?_
    exact (hk e he).closeSocket (isCloseSocket_iff.mp hclose)
  · refine List.countP_eq_zero.mpr fun e he hclose => ?_
    obtain ⟨reason,hreason⟩ := isAsyncClose_iff.mp hclose
    exact (hk e he).asyncClose reason hreason

/-- What follows the first stop of a closed session: no wait and no write, and one close before the quiet
events. -/
theorem Closed.after {s : State} (h : Closed s) {before after : List Event}
    (hlog : s.log = before ++ .entered .stop :: after) (hstop : .entered .stop ∉ before) :
    .called .asyncWait ∉ after ∧ (∀ m, .called (.asyncWrite m) ∉ after) ∧
      if .entered (.accept none) ∈ before then websocketCloses s.log = 1 ∧ socketCloses s.log = 0
      else websocketCloses s.log = 0 ∧ socketCloses s.log = 1 := by
  obtain ⟨before',c,k,hs,hopen,hc,hk⟩ := h.log
  have hsplit : before' ++ .entered .stop :: ([.called .cancelTimer,.called c] ++ k) =
      before ++ .entered .stop :: after := by
    rw [← hlog,hs]
    simp
  obtain ⟨rfl,rfl⟩ := first_split hsplit hopen.stop hstop
  obtain ⟨hsocket,hwebsocket⟩ := quiet_closes hk
  have hwait : ∀ e ∈ k, e ≠ .called .asyncWait ∧ ∀ m, e ≠ .called (.asyncWrite m) := by
    intro e he
    have hquiet := hk e he
    refine ⟨?_,fun m => ?_⟩
    · rintro rfl
      simp [quiet_iff] at hquiet
    · rintro rfl
      simp [quiet_iff] at hquiet
  have hclose : (∃ reason, c = .asyncClose reason) ∨ c = .closeSocket := by
    unfold ClosesWith at hc
    split at hc
    · exact Or.inl hc
    · exact Or.inr hc
  refine ⟨?_,fun m => ?_,?_⟩
  · intro hmem
    rcases List.mem_append.mp hmem with hmem | hmem
    · rcases hclose with ⟨reason,rfl⟩ | rfl <;> simp at hmem
    · exact (hk _ hmem).asyncWait rfl
  · intro hmem
    rcases List.mem_append.mp hmem with hmem | hmem
    · rcases hclose with ⟨reason,rfl⟩ | rfl <;> simp at hmem
    · exact (hk _ hmem).asyncWrite m rfl
  · unfold ClosesWith at hc
    rw [hs]
    by_cases hchats : .entered (.accept none) ∈ before'
    · rw [if_pos hchats] at hc ⊢
      obtain ⟨reason,rfl⟩ := hc
      simp [hsocket,hwebsocket,hopen.socketCloses,hopen.websocketCloses]
    · rw [if_neg hchats] at hc ⊢
      obtain rfl := hc
      simp [hsocket,hwebsocket,hopen.socketCloses,hopen.websocketCloses]

/-- Before the first `handle_stop` exactly one wait is outstanding or queued, the time remaining is never
negative, and the sixth time-out has stopped the session. From the first `handle_stop` on nothing is
waited for or written, and the one close is that of the socket exactly if no successful handshake was
handled before. -/
theorem session_stops_and_closes {s : State} (h : session.Reachable s) :
    (.entered .stop ∉ s.log → s.waits = [.pending] ∨ s.waits = [.done none]) ∧
    0 ≤ s.timeRemaining ∧ .asserted .timeRemaining false ∉ s.log ∧
    (6 ≤ timers s.log → .entered .stop ∈ s.log) ∧
    ∀ before after, s.log = before ++ .entered .stop :: after → .entered .stop ∉ before →
      s.state = .closing ∧ .called .asyncWait ∉ after ∧ (∀ m, .called (.asyncWrite m) ∉ after) ∧
      if .entered (.accept none) ∈ before then websocketCloses s.log = 1 ∧ socketCloses s.log = 0
      else websocketCloses s.log = 0 ∧ socketCloses s.log = 1 := by
  have hsession := reachable_session h
  refine ⟨?_,hsession.timeRemaining,?_,?_,?_⟩
  · intro hstop
    rcases hsession with ⟨-,hclock⟩ | hclosed
    · exact hclock.waits
    · exact absurd hclosed.stopped hstop
  · rcases hsession with ⟨hrun,-⟩ | hclosed
    · exact hrun.log.asserted
    · exact hclosed.asserted
  · intro hsix
    rcases hsession with ⟨-,hclock⟩ | hclosed
    · have hticks := hclock.ticks
      omega
    · exact hclosed.stopped
  · intro before after hlog hstop
    rcases hsession with ⟨hrun,-⟩ | hclosed
    · exact absurd (by simp [hlog]) hrun.log.stop
    · exact ⟨hclosed.state,hclosed.after hlog hstop⟩

def sixTimeouts : List Action := (List.replicate 6 [.waitCompletes 0 none,.waited 0]).flatten

theorem session_stops_and_closes_sixTimeouts :
    ∃ s₀ s, session.start s₀ ∧ session.replay s₀ sixTimeouts = some s ∧ timers s.log = 6 ∧
      .entered .stop ∈ s.log := by
  have hrun : session.replay { State.init with tasks := [] }.handleRun sixTimeouts = some _ := rfl
  have hstops := (session_stops_and_closes (Machine.Reachable.of_replay rfl hrun)).2.2.2.1
  exact ⟨_,_,rfl,hrun,by decide,hstops (by decide)⟩

end EchoConnection
end BeastWebsocketEcho
