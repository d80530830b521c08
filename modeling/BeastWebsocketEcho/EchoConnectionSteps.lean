import BeastWebsocketEcho.EchoConnection
import BeastWebsocketEcho.Chronicle

/-!
# What one step of the echo connection can do

The readers of the log, and `Step`: a call from outside or a completion that is queued
changes nothing that a handler looks at, and every other step is one handler, run on
the state from which its task or its operation has been removed.
-/

namespace BeastWebsocketEcho
namespace EchoConnection

namespace Event

@[simp] def send? : Event → Option String
  | .entered (.send msg) => some msg
  | _ => none

@[simp] def write? : Event → Option (Option String)
  | .called (.asyncWrite msg) => some msg
  | _ => none

@[simp] def tx? : Event → Option ErrorCode
  | .entered (.tx ec) => some ec
  | _ => none

@[simp] def isTimer : Event → Bool
  | .entered .timer => true
  | _ => false

@[simp] def isCloseSocket : Event → Bool
  | .called .closeSocket => true
  | _ => false

@[simp] def isAsyncClose : Event → Bool
  | .called (.asyncClose _) => true
  | _ => false

end Event

def submitted (log : List Event) : List String := log.filterMap Event.send?
def started (log : List Event) : List (Option String) := log.filterMap Event.write?
def txResults (log : List Event) : List ErrorCode := log.filterMap Event.tx?
def timers (log : List Event) : ℕ := log.countP Event.isTimer
def socketCloses (log : List Event) : ℕ := log.countP Event.isCloseSocket
def websocketCloses (log : List Event) : ℕ := log.countP Event.isAsyncClose

section Logs

variable (l k : List Event) (e : Event)

@[simp] theorem submitted_nil : submitted [] = [] := rfl
@[simp] theorem started_nil : started [] = [] := rfl
@[simp] theorem txResults_nil : txResults [] = [] := rfl
@[simp] theorem timers_nil : timers [] = 0 := rfl
@[simp] theorem socketCloses_nil : socketCloses [] = 0 := rfl
@[simp] theorem websocketCloses_nil : websocketCloses [] = 0 := rfl
@[simp] theorem submitted_append : submitted (l ++ k) = submitted l ++ submitted k := List.filterMap_append
@[simp] theorem started_append : started (l ++ k) = started l ++ started k := List.filterMap_append
@[simp] theorem txResults_append : txResults (l ++ k) = txResults l ++ txResults k := List.filterMap_append
@[simp] theorem timers_append : timers (l ++ k) = timers l + timers k := List.countP_append
@[simp] theorem socketCloses_append : socketCloses (l ++ k) = socketCloses l + socketCloses k :=
  List.countP_append
@[simp] theorem websocketCloses_append : websocketCloses (l ++ k) = websocketCloses l + websocketCloses k :=
  List.countP_append
@[simp] theorem submitted_cons : submitted (e :: l) = e.send?.toList ++ submitted l := filterMap_cons_toList _ _ _
@[simp] theorem started_cons : started (e :: l) = e.write?.toList ++ started l := filterMap_cons_toList _ _ _
@[simp] theorem txResults_cons : txResults (e :: l) = e.tx?.toList ++ txResults l := filterMap_cons_toList _ _ _
@[simp] theorem timers_cons : timers (e :: l) = timers l + if e.isTimer then 1 else 0 := List.countP_cons
@[simp] theorem socketCloses_cons : socketCloses (e :: l) = socketCloses l + if e.isCloseSocket then 1 else 0 :=
  List.countP_cons
@[simp] theorem websocketCloses_cons :
    websocketCloses (e :: l) = websocketCloses l + if e.isAsyncClose then 1 else 0 := List.countP_cons

end Logs

inductive Step (s : State) : State → Prop
  | call (t : Task) (ht : t ≠ .handleRun) : Step s { s with tasks := s.tasks ++ [t] }
  | acceptCompletes (accepts : List (Status ErrorCode)) : Step s { s with accepts := accepts }
  | readCompletes (reads : List (Status (Except Error (List Char)))) (hr : reads = [] ↔ s.reads = []) :
      Step s { s with reads := reads }
  | writeCompletes (writes : List (Option String × Status ErrorCode))
      (hw : writes.map Prod.fst = s.writes.map Prod.fst) : Step s { s with writes := writes }
  | waitCompletes (i : ℕ) (ec : ErrorCode) (st st' : Status ErrorCode) (hi : s.waits[i]? = some st)
      (hst : completeWait ec st = some st') : Step s { s with waits := s.waits.set i st' }
  | closeCompletes (closes : List (Status ErrorCode)) : Step s { s with closes := closes }
  | run (i : ℕ) (hi : s.tasks[i]? = some .handleRun) : Step s { s with tasks := s.tasks.eraseIdx i }.handleRun
  | stop (i : ℕ) : Step s ({ s with tasks := s.tasks.eraseIdx i }.handleStop ⟨goingAway,""⟩)
  | send (i : ℕ) (msg : String) : Step s ({ s with tasks := s.tasks.eraseIdx i }.handleSend msg)
  | accepted (i : ℕ) (ec : ErrorCode) : Step s ({ s with accepts := s.accepts.eraseIdx i }.accepted ec)
  | read (i : ℕ) (r : Except Error (List Char)) (inl : Bool) (hr : s.reads ≠ []) :
      Step s ({ s with reads := s.reads.eraseIdx i }.handleRx r inl)
  | written (i : ℕ) (m : Option String) (ec : ErrorCode) (hw : s.writes[i]? = some (m,.done ec)) :
      Step s ({ s with writes := s.writes.eraseIdx i }.handleTx ec)
  | waited (i : ℕ) (ec : ErrorCode) (hi : s.waits[i]? = some (.done ec)) :
      Step s ({ s with waits := s.waits.eraseIdx i }.waited ec)

theorem result_eq_some {R : Type} {ops : List (Status R)} {i : ℕ} {r : R} (h : result ops i = some r) :
    ops[i]? = some (.done r) := by
  unfold result at h
  split at h
  · next r' hi =>
    obtain rfl := Option.some.inj h
    exact hi
  · simp at h

theorem step_cases {s t : State} {a : Action} (h : step s a = some t) : Step s t := by
  cases a with
  | send msg =>
    obtain rfl := Option.some.inj h
    exact Step.call _ (by simp)
  | stop =>
    obtain rfl := Option.some.inj h
    exact Step.call _ (by simp)
  | runTask i =>
    obtain ⟨task,hi,rfl⟩ := Option.map_eq_some_iff.mp h
    cases task with
    | handleRun => exact Step.run i hi
    | handleStop => exact Step.stop i
    | handleSend msg => exact Step.send i msg
  | acceptCompletes i ec =>
    obtain ⟨st,-,rfl⟩ := Option.map_eq_some_iff.mp h
    exact Step.acceptCompletes _
  | readCompletes i r =>
    obtain ⟨st,-,rfl⟩ := Option.map_eq_some_iff.mp h
    exact Step.readCompletes _ (by simp [← List.length_eq_zero_iff])
  | writeCompletes i ec =>
    obtain ⟨w,hw,hst⟩ := Option.bind_eq_some_iff.mp h
    obtain ⟨st,-,rfl⟩ := Option.map_eq_some_iff.mp hst
    refine Step.writeCompletes _ ?_
    obtain ⟨hi,rfl⟩ := List.getElem?_eq_some_iff.mp hw
    have hlen : i < (s.writes.map Prod.fst).length := by simpa using hi
    have hget : (s.writes.map Prod.fst)[i] = s.writes[i].1 := by simp
    rw [List.map_set,← hget,List.set_getElem_self]
  | waitCompletes i ec =>
    obtain ⟨st',hst,rfl⟩ := Option.map_eq_some_iff.mp h
    obtain ⟨st,hi,hst⟩ := Option.bind_eq_some_iff.mp hst
    exact Step.waitCompletes i ec st st' hi hst
  | closeCompletes i ec =>
    obtain ⟨st,-,rfl⟩ := Option.map_eq_some_iff.mp h
    exact Step.closeCompletes _
  | accepted i =>
    obtain ⟨ec,-,rfl⟩ := Option.map_eq_some_iff.mp h
    exact Step.accepted i ec
  | read i inl =>
    obtain ⟨r,hr,rfl⟩ := Option.map_eq_some_iff.mp h
    refine Step.read i r inl ?_
    intro hnil
    simpa [hnil] using result_eq_some hr
  | written i =>
    obtain ⟨ec,hec,rfl⟩ := Option.map_eq_some_iff.mp h
    have hget := result_eq_some hec
    rw [List.getElem?_map] at hget
    obtain ⟨⟨m,st⟩,hw,rfl⟩ := Option.map_eq_some_iff.mp hget
    exact Step.written i m ec hw
  | waited i =>
    obtain ⟨ec,hec,rfl⟩ := Option.map_eq_some_iff.mp h
    exact Step.waited i ec (result_eq_some hec)
  | closed i =>
    obtain ⟨ec,-,rfl⟩ := Option.map_eq_some_iff.mp h
    exact Step.closeCompletes _

theorem initiateRx_eq (s : State) : s.initiateRx = { s with
    reads := s.reads ++ [Status.pending]
    log := s.log ++ [Event.asserted .rxChatting (s.state == .chatting),.asserted .rxNoError s.ec.isNone,
      .called .asyncRead] } := by
  simp [State.initiateRx,State.assert,State.emit,State.call,State.perform]

theorem initiateTx_eq (s : State) : s.initiateTx = { s with
    sendingState := .sending
    writes := s.writes ++ [(s.txQueue.head?,.pending)]
    log := s.log ++ [Event.asserted .txIdle (s.sendingState == .sendIdle),.asserted .txNoError s.ec.isNone,
      .asserted .txNonEmpty (!s.txQueue.isEmpty),.called (.asyncWrite s.txQueue.head?)] } := by
  simp [State.initiateTx,State.assert,State.emit,State.call,State.perform]

theorem initiateTimer_eq (s : State) : s.initiateTimer = { s with
    timeRemaining := s.timeRemaining - min s.timeRemaining 5
    waits := s.waits.map Status.cancel ++ [Status.pending]
    log := s.log ++ [Event.asserted .timeRemaining (s.timeRemaining != 0),
      .called (.expiresAfter (min s.timeRemaining 5)),.called .asyncWait] } := by
  simp [State.initiateTimer,State.assert,State.emit,State.call,State.perform]

/-- `handle_accept` starts to chat, or does nothing. -/
theorem accepted_cases (s : State) (ec : ErrorCode) :
    ((s.ec ≠ none ∨ ec ≠ none) ∧ s.accepted ec = s.emit (.entered (.accept ec))) ∨
      (s.ec = none ∧ ec = none ∧ s.accepted ec =
        { s.emit (.entered (.accept none)) with state := .chatting }.initiateRx.maybeSendNext) := by
  cases hs : s.ec with
  | some e => exact Or.inl ⟨Or.inl (by simp),by simp [State.accepted,State.handleAccept,State.emit,hs]⟩
  | none =>
    cases ec with
    | some e => exact Or.inl ⟨Or.inr (by simp),by simp [State.accepted,State.handleAccept]⟩
    | none => exact Or.inr ⟨rfl,rfl,by simp [State.accepted,State.handleAccept,State.emit,hs]⟩

/-- `handle_stop` closes the socket, starts the close handshake, or leaves both alone. -/
theorem handleStop_cases (s : State) (reason : CloseReason) :
    let u := { s.emit (.entered .stop) with ec := some .operationAborted }.call .cancelTimer
    (s.state = .handshaking ∧ s.handleStop reason = { u.call .closeSocket with state := .closing }) ∨
      (s.state = .chatting ∧ s.handleStop reason = { u.call (.asyncClose reason) with state := .closing }) ∨
      (s.state = .closing ∧ s.handleStop reason = { u with state := .closing }) := by
  cases hs : s.state with
  | handshaking => exact Or.inl ⟨rfl,by simp [State.handleStop,State.call,State.perform,State.emit,hs]⟩
  | chatting => exact Or.inr (Or.inl ⟨rfl,by simp [State.handleStop,State.call,State.perform,State.emit,hs]⟩)
  | closing => exact Or.inr (Or.inr ⟨rfl,by simp [State.handleStop,State.call,State.perform,State.emit,hs]⟩)

/-- `handle_timer` does nothing after a stop, tells the time and goes on, or stops the session. -/
theorem handleTimer_cases (s : State) :
    let u := s.emit (.entered .timer)
    (s.ec ≠ none ∧ s.handleTimer = u) ∨
      (s.ec = none ∧ s.timeRemaining ≠ 0 ∧
        s.handleTimer = (u.handleSend (toString s.timeRemaining ++ " seconds remaining")).initiateTimer) ∨
      (s.ec = none ∧ s.timeRemaining = 0 ∧ s.handleTimer = u.handleStop ⟨goingAway,"session timed out"⟩) := by
  cases hs : s.ec with
  | some e => exact Or.inl ⟨by simp,by simp [State.handleTimer,State.emit,hs]⟩
  | none =>
    by_cases ht : s.timeRemaining = 0
    · exact Or.inr (Or.inr ⟨rfl,ht,by simp [State.handleTimer,State.emit,hs,ht]⟩)
    · exact Or.inr (Or.inl ⟨rfl,ht,by simp [State.handleTimer,State.emit,hs,ht]⟩)

/-- The events of the send region; a write is among them only while there is no error. -/
inductive Sending (ec : ErrorCode) : Event → Prop
  | send (msg : String) : Sending ec (.entered (.send msg))
  | tx (result : ErrorCode) : Sending ec (.entered (.tx result))
  | asserted (a : Assertion) (holds : Bool) (ha : a = .txIdle ∨ a = .txNoError ∨ a = .txNonEmpty) :
      Sending ec (.asserted a holds)
  | write (msg : Option String) (hec : ec = none) : Sending ec (.called (.asyncWrite msg))

attribute [simp] Sending.send Sending.tx Sending.asserted Sending.write

/-- The send region has worked, and everything beside it is as it was. -/
structure Beside (s t : State) : Prop where
  ec : t.ec = s.ec
  state : t.state = s.state
  tasks : .handleRun ∈ t.tasks → .handleRun ∈ s.tasks
  reads : t.reads = s.reads
  waits : t.waits = s.waits
  timeRemaining : t.timeRemaining = s.timeRemaining
  log : ∃ k, t.log = s.log ++ k ∧ ∀ e ∈ k, Sending s.ec e

theorem Beside.refl (s : State) : Beside s s := ⟨rfl,rfl,id,rfl,rfl,rfl,[],by simp,by simp⟩

theorem Beside.trans {s t u : State} (h₁ : Beside s t) (h₂ : Beside t u) : Beside s u := by
  obtain ⟨k,hk,hk'⟩ := h₁.log
  obtain ⟨l,hl,hl'⟩ := h₂.log
  refine ⟨h₂.ec.trans h₁.ec,h₂.state.trans h₁.state,fun hu => h₁.tasks (h₂.tasks hu),h₂.reads.trans h₁.reads,
    h₂.waits.trans h₁.waits,h₂.timeRemaining.trans h₁.timeRemaining,k ++ l,by rw [hl,hk,List.append_assoc],?_⟩
  intro e he
  rcases List.mem_append.mp he with he | he
  · exact hk' e he
  · rw [← h₁.ec]
    exact hl' e he

theorem Beside.of_log {s t : State} (k : List Event) (hlog : t.log = s.log ++ k) (hk : ∀ e ∈ k, Sending s.ec e)
    (hsame : (t.ec,t.state,t.tasks,t.reads,t.waits,t.timeRemaining) =
      (s.ec,s.state,s.tasks,s.reads,s.waits,s.timeRemaining)) : Beside s t := by
  simp only [Prod.mk.injEq] at hsame
  obtain ⟨hec,hstate,htasks,hreads,hwaits,htime⟩ := hsame
  exact ⟨hec,hstate,by rw [htasks]; exact id,hreads,hwaits,htime,k,hlog,hk⟩

theorem beside_maybeSendNext (s : State) : Beside s s.maybeSendNext := by
  unfold State.maybeSendNext
  split
  · exact Beside.refl s
  · next hgo =>
    have hec : s.ec = none := by
      cases hs : s.ec with
      | none => rfl
      | some e => simp [hs] at hgo
    rw [initiateTx_eq]
    exact Beside.of_log _ rfl (by simp [hec]) rfl

theorem beside_handleSend (s : State) (msg : String) : Beside s (s.handleSend msg) := by
  refine Beside.trans ?_ (beside_maybeSendNext _)
  exact Beside.of_log [.entered (.send msg)] rfl (by simp) rfl

theorem beside_dispatchSend (s : State) (msg : String) (inl : Bool) : Beside s (s.dispatchSend msg inl) := by
  cases inl with
  | true => exact beside_handleSend s msg
  | false => exact ⟨rfl,rfl,by simp [State.dispatchSend],rfl,rfl,rfl,[],by simp [State.dispatchSend],by simp⟩

theorem beside_handleTx (s : State) (ec : ErrorCode) : Beside s (s.handleTx ec) := by
  have hentered : Beside s (s.emit (.entered (.tx ec))) :=
    Beside.of_log [.entered (.tx ec)] rfl (by simp) rfl
  cases ec with
  | some e => exact hentered
  | none =>
    refine Beside.trans ?_ (beside_maybeSendNext _)
    exact Beside.of_log [.entered (.tx none)] rfl (by simp) rfl

end EchoConnection
end BeastWebsocketEcho
