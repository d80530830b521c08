import BeastWebsocketEcho.EchoConnectionSteps
import BeastWebsocketEcho.Outbox

/-!
# The send region of the echo connection

`tx_queue_` and `sending_state_` are an outbox: what is written is a prefix of what was
given to `handle_send`, and the message being written stays in front of the queue. A
failed write leaves the region sending for ever.
-/

namespace BeastWebsocketEcho
namespace EchoConnection

def TxFailed (log : List Event) : Prop := ∃ e, some e ∈ txResults log

/-- What must hold when an event is logged: the assertions of `initiate_tx` do, and no write is
started after a failed one. -/
def TxOrder (before : List Event) (e : Event) : Prop :=
  e ≠ .asserted .txIdle false ∧ e ≠ .asserted .txNoError false ∧ e ≠ .asserted .txNonEmpty false ∧
    ((∃ m, e = .called (.asyncWrite m)) → ¬ TxFailed before)

structure Region (s : State) (o : Outbox String) : Prop where
  queue : o.queue = s.txQueue
  busy : o.busy = true ↔ s.sendingState = .sending
  submitted : o.submitted = submitted s.log
  started : o.started.map some = started s.log
  idle : s.sendingState = .sendIdle → s.writes = []
  sending : s.sendingState = .sending → s.writes.map Prod.fst = [s.txQueue.head?] ∨ (s.writes = [] ∧ TxFailed s.log)
  failed : TxFailed s.log → s.sendingState = .sending ∧ s.writes = []
  order : Chronicle TxOrder s.log

def Sound (s : State) : Prop := ∃ o, Region s o

/-- Nothing waits for a write that nobody started. -/
def Live (s : State) : Prop :=
  s.state = .chatting → s.ec = none → s.txQueue ≠ [] → s.sendingState = .sending

theorem Region.frame {s t : State} {o : Outbox String} (h : Region s o)
    (hwrites : t.writes.map Prod.fst = s.writes.map Prod.fst)
    (hsame : (t.txQueue,t.sendingState,t.log) = (s.txQueue,s.sendingState,s.log)) : Region t o := by
  simp only [Prod.mk.injEq] at hsame
  obtain ⟨hqueue,hsending,hlog⟩ := hsame
  have hnil : t.writes = [] ↔ s.writes = [] := by
    rw [← List.map_eq_nil_iff (f := Prod.fst),hwrites,List.map_eq_nil_iff]
  refine ⟨by rw [hqueue,h.queue],by rw [hsending,h.busy],by rw [hlog,h.submitted],by rw [hlog,h.started],
    ?_,?_,?_,by rw [hlog]; exact h.order⟩
  · rw [hsending,hnil]
    exact h.idle
  · rw [hsending,hwrites,hqueue,hnil,hlog]
    exact h.sending
  · rw [hlog,hsending,hnil]
    exact h.failed

theorem Sound.frame {s t : State} (h : Sound s)
    (hwrites : t.writes.map Prod.fst = s.writes.map Prod.fst)
    (hsame : (t.txQueue,t.sendingState,t.log) = (s.txQueue,s.sendingState,s.log)) : Sound t := by
  obtain ⟨o,h⟩ := h
  exact ⟨o,h.frame hwrites hsame⟩

theorem Sound.emit {s : State} (h : Sound s) {e : Event} (htx : e.tx? = none ∨ e.tx? = some none)
    (horder : TxOrder s.log e) (hsend : e.send? = none) (hwrite : e.write? = none) : Sound (s.emit e) := by
  obtain ⟨o,h⟩ := h
  have hsubmitted : submitted (s.log ++ [e]) = submitted s.log := by
    rw [submitted_append,submitted_cons,hsend]
    simp
  have hstarted : started (s.log ++ [e]) = started s.log := by
    rw [started_append,started_cons,hwrite]
    simp
  have hfailed : TxFailed (s.log ++ [e]) ↔ TxFailed s.log := by
    unfold TxFailed
    rw [txResults_append,txResults_cons]
    rcases htx with htx | htx <;> rw [htx] <;> simp
  refine ⟨o,h.queue,h.busy,h.submitted.trans hsubmitted.symm,h.started.trans hstarted.symm,h.idle,?_,?_,
    h.order.snoc horder⟩
  · rw [show TxFailed (s.emit e).log ↔ TxFailed s.log from hfailed]
    exact h.sending
  · rw [show TxFailed (s.emit e).log ↔ TxFailed s.log from hfailed]
    exact h.failed

theorem sound_assert {s : State} (h : Sound s) (a : Assertion) (holds : Bool)
    (ha : holds = true ∨ a = .rxChatting ∨ a = .rxNoError ∨ a = .timeRemaining) : Sound (s.assert a holds) := by
  refine h.emit (Or.inl rfl) ?_ rfl rfl
  rcases ha with rfl | rfl | rfl | rfl <;> simp [TxOrder]

theorem sound_enter {s : State} (h : Sound s) {x : Handler} (hsend : ∀ msg, x ≠ .send msg)
    (htx : ∀ e, x ≠ .tx (some e)) : Sound (s.emit (.entered x)) := by
  cases x with
  | send msg => exact absurd rfl (hsend msg)
  | tx ec =>
    cases ec with
    | some e => exact absurd rfl (htx e)
    | none => exact h.emit (Or.inr rfl) (by simp [TxOrder]) rfl rfl
  | _ => exact h.emit (Or.inl rfl) (by simp [TxOrder]) rfl rfl

theorem sound_call {s : State} (h : Sound s) {c : Call} (hc : ∀ m, c ≠ .asyncWrite m) : Sound (s.call c) := by
  have hperform : Sound (s.perform c) := by
    cases c with
    | asyncWrite m => exact absurd rfl (hc m)
    | closeSocket => exact h.frame (by simp [State.perform]) rfl
    | _ => exact h.frame rfl rfl
  have hwrite : (Event.called c).write? = none := by
    cases c with
    | asyncWrite m => exact absurd rfl (hc m)
    | _ => rfl
  refine hperform.emit (Or.inl rfl) ⟨by simp,by simp,by simp,?_⟩ rfl hwrite
  rintro ⟨m,hm⟩
  exact absurd (by simpa using hm) (hc m)

theorem sound_write {s : State} (h : Sound s) (hidle : s.sendingState = .sendIdle) (hne : s.txQueue ≠ []) :
    Sound ({ s with sendingState := .sending }.call (.asyncWrite s.txQueue.head?)) := by
  obtain ⟨o,h⟩ := h
  have hnot : ¬ TxFailed s.log := fun hf => by simpa [hidle] using (h.failed hf).1
  have hfree : o.busy = false := by simp [← Bool.not_eq_true,h.busy,hidle]
  have hfailed : TxFailed (s.log ++ [Event.called (.asyncWrite s.txQueue.head?)]) ↔ TxFailed s.log := by simp [TxFailed]
  obtain ⟨m,ms,hm⟩ := List.exists_cons_of_ne_nil hne
  have hstart : o.queue ≠ [] := by rw [h.queue]; exact hne
  refine ⟨o.start hstart,h.queue,iff_of_true rfl rfl,?_,?_,
    fun hx => absurd hx (by simp [State.call,State.perform,State.emit]),
    fun _ => Or.inl ?_,fun hf => absurd (hfailed.mp hf) hnot,h.order.snoc (by simp [TxOrder,hnot])⟩
  · simpa [State.call,State.perform,State.emit] using h.submitted
  · rw [o.started_start hstart hfree]
    simp [State.call,State.perform,State.emit,h.started,h.queue,hm]
  · simp [State.call,State.perform,State.emit,h.idle hidle]

/-- `maybe_send_next` has checked all that `initiate_tx` asserts. -/
theorem sound_initiateTx {s : State} (h : Sound s) (hidle : s.sendingState = .sendIdle) (hec : s.ec = none)
    (hne : s.txQueue ≠ []) : Sound s.initiateTx := by
  have h₁ := sound_assert h .txIdle (s.sendingState == .sendIdle) (Or.inl (by simp [hidle]))
  have h₂ := sound_assert h₁ .txNoError s.ec.isNone (Or.inl (by simp [hec]))
  have h₃ := sound_assert h₂ .txNonEmpty (!s.txQueue.isEmpty) (Or.inl (by simp [hne]))
  exact sound_write h₃ hidle hne

theorem sound_maybeSendNext {s : State} (h : Sound s) : Sound s.maybeSendNext := by
  unfold State.maybeSendNext
  split
  · exact h
  · next hgo =>
    simp only [Bool.or_eq_true,not_or,Bool.not_eq_true,Option.isSome_eq_false_iff,Option.isNone_iff_eq_none,
      beq_eq_false_iff_ne,List.isEmpty_eq_false_iff] at hgo
    obtain ⟨⟨⟨hec,-⟩,hsending⟩,hne⟩ := hgo
    have hidle : s.sendingState = .sendIdle := by
      cases hs : s.sendingState with
      | sendIdle => rfl
      | sending => exact absurd hs hsending
    exact sound_initiateTx h hidle hec hne

/-- After `maybe_send_next` nothing waits that could be sent. -/
theorem live_maybeSendNext (s : State) : Live s.maybeSendNext := by
  unfold State.maybeSendNext
  split
  · next hstay =>
    intro hchat hec hne
    simpa [hchat,hec,hne] using hstay
  · exact fun _ _ _ => rfl

theorem sound_submit {s : State} (h : Sound s) (msg : String) :
    Sound { s.emit (.entered (.send msg)) with txQueue := s.txQueue ++ [msg] } := by
  obtain ⟨o,h⟩ := h
  have hfailed : TxFailed (s.log ++ [Event.entered (.send msg)]) ↔ TxFailed s.log := by simp [TxFailed]
  have hsame : s.sendingState = .sending → (s.txQueue ++ [msg]).head? = s.txQueue.head? := by
    intro hs
    have hne := o.front (h.busy.mpr hs)
    rw [h.queue] at hne
    exact List.head?_append_of_ne_nil _ hne
  refine ⟨o.submit msg,?_,h.busy,?_,?_,h.idle,?_,?_,h.order.snoc (by simp [TxOrder])⟩
  · simp [Outbox.submit,h.queue]
  · simp [State.emit,h.submitted]
  · simp [State.emit,h.started]
  · intro hs
    rcases h.sending hs with hw | ⟨hw,hf⟩
    · exact Or.inl (hw.trans (congrArg (fun x => [x]) (hsame hs).symm))
    · exact Or.inr ⟨hw,hfailed.mpr hf⟩
  · intro hf
    exact h.failed (hfailed.mp hf)

theorem sound_handleSend {s : State} (h : Sound s) (msg : String) : Sound (s.handleSend msg) :=
  sound_maybeSendNext (sound_submit h msg)

theorem live_handleSend (s : State) (msg : String) : Live (s.handleSend msg) := live_maybeSendNext _

theorem sound_initiateRx {s : State} (h : Sound s) : Sound s.initiateRx := by
  have h₁ := sound_assert h .rxChatting (s.state == .chatting) (by simp)
  have h₂ := sound_assert h₁ .rxNoError s.ec.isNone (by simp)
  exact sound_call h₂ (by simp)

theorem sound_initiateTimer {s : State} (h : Sound s) : Sound s.initiateTimer := by
  have h₁ := sound_assert h .timeRemaining (s.timeRemaining != 0) (by simp)
  have h₂ : Sound { s.assert .timeRemaining (s.timeRemaining != 0) with
      timeRemaining := s.timeRemaining - min s.timeRemaining 5 } := h₁.frame rfl rfl
  exact sound_call (sound_call h₂ (by simp)) (by simp)

theorem sound_handleRun {s : State} (h : Sound s) : Sound s.handleRun :=
  sound_initiateTimer (sound_call (sound_enter h (by simp) (by simp)) (by simp))

theorem sound_accepted {s : State} (h : Sound s) (ec : ErrorCode) : Sound (s.accepted ec) := by
  rcases accepted_cases s ec with ⟨-,hsame⟩ | ⟨-,rfl,hchats⟩
  · rw [hsame]
    exact sound_enter h (by simp) (by simp)
  · have hentered := sound_enter h (x := .accept none) (by simp) (by simp)
    have hchatting : Sound { s.emit (.entered (.accept none)) with state := .chatting } := hentered.frame rfl rfl
    rw [hchats]
    exact sound_maybeSendNext (sound_initiateRx hchatting)

theorem sound_handleStop {s : State} (h : Sound s) (reason : CloseReason) : Sound (s.handleStop reason) := by
  have h₁ := sound_enter h (x := .stop) (by simp) (by simp)
  have h₂ : Sound { s.emit (.entered .stop) with ec := some .operationAborted } := h₁.frame rfl rfl
  have h₃ := sound_call h₂ (c := .cancelTimer) (by simp)
  rcases handleStop_cases s reason with ⟨-,hstop⟩ | ⟨-,hstop⟩ | ⟨-,hstop⟩
  · have h₄ := sound_call h₃ (c := .closeSocket) (by simp)
    rw [hstop]
    exact h₄.frame rfl rfl
  · have h₄ := sound_call h₃ (c := .asyncClose reason) (by simp)
    rw [hstop]
    exact h₄.frame rfl rfl
  · rw [hstop]
    exact h₃.frame rfl rfl

theorem sound_dispatchSend {s : State} (h : Sound s) (msg : String) (inl : Bool) : Sound (s.dispatchSend msg inl) := by
  cases inl with
  | true => exact sound_handleSend h msg
  | false => exact h.frame rfl rfl

theorem sound_handleRx {s : State} (h : Sound s) (r : Except Error (List Char)) (inl : Bool) :
    Sound (s.handleRx r inl) := by
  have hentered := sound_enter h (x := .rx r) (by simp) (by simp)
  cases r with
  | error e => exact hentered
  | ok bytes =>
    have hread : ∀ buffer, Sound { s.emit (.entered (.rx (.ok bytes))) with rxbuffer := buffer } :=
      fun buffer => hentered.frame rfl rfl
    exact sound_dispatchSend (sound_initiateRx (hread _)) _ inl

/-- The completion of a write is that of the only one outstanding. -/
theorem Region.written {s : State} {o : Outbox String} (h : Region s o) {i : ℕ} {w : Option String × Status ErrorCode}
    (hw : s.writes[i]? = some w) :
    s.sendingState = .sending ∧ s.writes.eraseIdx i = [] ∧ ¬ TxFailed s.log := by
  have hne : s.writes ≠ [] := by
    intro hnil
    simp [hnil] at hw
  have hsending : s.sendingState = .sending := by
    cases hs : s.sendingState with
    | sendIdle => exact absurd (h.idle hs) hne
    | sending => rfl
  refine ⟨hsending,?_,fun hf => hne (h.failed hf).2⟩
  rcases h.sending hsending with hone | ⟨hnil,-⟩
  · obtain ⟨x,hx,-⟩ := List.map_eq_singleton_iff.mp hone
    rw [hx] at hw ⊢
    cases i with
    | zero => rfl
    | succ i => simp at hw
  · exact absurd hnil hne

/-- A write that succeeded has been taken from the queue, and the next one may start. -/
theorem sound_finish {s : State} {o : Outbox String} (h : Region s o) (hsending : s.sendingState = .sending)
    (hnot : ¬ TxFailed s.log) :
    Sound { s.emit (.entered (.tx none)) with
      writes := []
      txQueue := s.txQueue.tail
      sendingState := .sendIdle } := by
  have hfailed : ¬ TxFailed (s.log ++ [Event.entered (.tx none)]) := by simpa [TxFailed] using hnot
  have hbusy := h.busy.mpr hsending
  refine ⟨o.finish,?_,by simp [Outbox.finish],?_,?_,fun _ => rfl,by simp,fun hf => absurd hf hfailed,
    h.order.snoc (by simp [TxOrder])⟩
  · simp [Outbox.finish,h.queue]
  · simp [State.emit,h.submitted]
  · simp [State.emit,o.started_finish hbusy,h.started]

theorem sound_fail {s : State} {o : Outbox String} (h : Region s o) (hsending : s.sendingState = .sending)
    (e : Error) : Sound { s.emit (.entered (.tx (some e))) with writes := [] } := by
  have hfailed : TxFailed (s.log ++ [Event.entered (.tx (some e))]) := ⟨e,by simp⟩
  refine ⟨o,h.queue,h.busy,?_,?_,fun _ => rfl,fun _ => Or.inr ⟨rfl,hfailed⟩,fun _ => ⟨hsending,rfl⟩,
    h.order.snoc (by simp [TxOrder])⟩
  · simp [State.emit,h.submitted]
  · simp [State.emit,h.started]

theorem sound_handleTx {s : State} (h : Sound s) {i : ℕ} {m : Option String} {ec : ErrorCode}
    (hw : s.writes[i]? = some (m,.done ec)) : Sound ({ s with writes := s.writes.eraseIdx i }.handleTx ec) := by
  obtain ⟨o,h⟩ := h
  obtain ⟨hsending,hnil,hnot⟩ := h.written hw
  rw [hnil]
  cases ec with
  | some e => exact sound_fail h hsending e
  | none => exact sound_maybeSendNext (s := { s.emit (.entered (.tx none)) with
      writes := []
      txQueue := s.txQueue.tail
      sendingState := .sendIdle }) (sound_finish h hsending hnot)

theorem sound_handleTimer {s : State} (h : Sound s) : Sound s.handleTimer := by
  have hentered := sound_enter h (x := .timer) (by simp) (by simp)
  rcases handleTimer_cases s with ⟨-,hsame⟩ | ⟨-,-,hgoes⟩ | ⟨-,-,hstop⟩
  · rw [hsame]
    exact hentered
  · rw [hgoes]
    exact sound_initiateTimer (sound_handleSend hentered _)
  · rw [hstop]
    exact sound_handleStop hentered _

theorem sound_step {s t : State} (h : Sound s) (hstep : Step s t) : Sound t := by
  cases hstep with
  | writeCompletes writes hw => exact h.frame hw rfl
  | run i hi => exact sound_handleRun (s := { s with tasks := s.tasks.eraseIdx i }) (h.frame rfl rfl)
  | stop i => exact sound_handleStop (s := { s with tasks := s.tasks.eraseIdx i }) (h.frame rfl rfl) _
  | send i msg => exact sound_handleSend (s := { s with tasks := s.tasks.eraseIdx i }) (h.frame rfl rfl) msg
  | accepted i ec => exact sound_accepted (s := { s with accepts := s.accepts.eraseIdx i }) (h.frame rfl rfl) ec
  | read i r inl hr => exact sound_handleRx (s := { s with reads := s.reads.eraseIdx i }) (h.frame rfl rfl) r inl
  | written i m ec hw => exact sound_handleTx h hw
  | waited i ec hi =>
    have hwaits : Sound { s with waits := s.waits.eraseIdx i } := h.frame rfl rfl
    unfold State.waited
    split
    · exact hwaits
    · exact sound_handleTimer hwaits
  | _ => exact h.frame rfl rfl

theorem Live.frame {s t : State} (h : Live s) (hsame : (t.state,t.ec,t.txQueue,t.sendingState) =
    (s.state,s.ec,s.txQueue,s.sendingState)) : Live t := by
  simp only [Prod.mk.injEq] at hsame
  obtain ⟨hstate,hec,hqueue,hsending⟩ := hsame
  unfold Live
  rw [hstate,hec,hqueue,hsending]
  exact h

theorem live_initiateRx {s : State} (h : Live s) : Live s.initiateRx := by
  rw [initiateRx_eq]
  exact h.frame rfl

theorem live_initiateTimer {s : State} (h : Live s) : Live s.initiateTimer := by
  rw [initiateTimer_eq]
  exact h.frame rfl

theorem live_handleRun {s : State} (h : Live s) : Live s.handleRun := by
  have hentered : Live ((s.emit (.entered .run)).call .asyncAccept) := h.frame rfl
  exact live_initiateTimer hentered

theorem live_accepted {s : State} (h : Live s) (ec : ErrorCode) : Live (s.accepted ec) := by
  rcases accepted_cases s ec with ⟨-,hsame⟩ | ⟨-,-,hchats⟩
  · rw [hsame]
    exact h.frame rfl
  · rw [hchats]
    exact live_maybeSendNext _

theorem live_handleStop (s : State) (reason : CloseReason) : Live (s.handleStop reason) := by
  rcases handleStop_cases s reason with ⟨-,hstop⟩ | ⟨-,hstop⟩ | ⟨-,hstop⟩
  all_goals rw [hstop]; intro hchat; simp at hchat

theorem live_dispatchSend {s : State} (h : Live s) (msg : String) (inl : Bool) : Live (s.dispatchSend msg inl) := by
  cases inl with
  | true => exact live_handleSend _ _
  | false => exact h.frame rfl

theorem live_handleRx {s : State} (h : Live s) (r : Except Error (List Char)) (inl : Bool) :
    Live (s.handleRx r inl) := by
  have hentered : ∀ buffer, Live { s.emit (.entered (.rx r)) with rxbuffer := buffer } := fun _ => h.frame rfl
  cases r with
  | error e => exact hentered s.rxbuffer
  | ok bytes => exact live_dispatchSend (live_initiateRx (hentered _)) _ inl

theorem live_handleTimer {s : State} (h : Live s) : Live s.handleTimer := by
  rcases handleTimer_cases s with ⟨-,hsame⟩ | ⟨-,-,hgoes⟩ | ⟨-,-,hstop⟩
  · rw [hsame]
    exact h.frame rfl
  · rw [hgoes]
    exact live_initiateTimer (live_handleSend _ _)
  · rw [hstop]
    exact live_handleStop _ _

theorem live_step {s t : State} (hs : Sound s) (h : Live s) (hstep : Step s t) : Live t := by
  cases hstep with
  | run i hi => exact live_handleRun (s := { s with tasks := s.tasks.eraseIdx i }) (h.frame rfl)
  | stop i => exact live_handleStop _ _
  | send i msg => exact live_handleSend _ msg
  | accepted i ec => exact live_accepted (s := { s with accepts := s.accepts.eraseIdx i }) (h.frame rfl) ec
  | read i r inl hr => exact live_handleRx (s := { s with reads := s.reads.eraseIdx i }) (h.frame rfl) r inl
  | written i m ec hw =>
    cases ec with
    | some e =>
      obtain ⟨o,ho⟩ := hs
      exact fun _ _ _ => (ho.written hw).1
    | none => exact live_maybeSendNext _
  | waited i ec hi =>
    have hwaits : Live { s with waits := s.waits.eraseIdx i } := h.frame rfl
    unfold State.waited
    split
    · exact hwaits
    · exact live_handleTimer hwaits
  | _ => exact h.frame rfl

theorem reachable_sound {s : State} (h : machine.Reachable s) : Sound s := by
  refine h.invariant (I := Sound) ?_ fun s a t hs ha => sound_step hs (step_cases ha)
  rintro s rfl
  refine ⟨Outbox.empty,rfl,by decide,rfl,rfl,fun _ => rfl,by simp [State.init],?_,Chronicle.nil⟩
  rintro ⟨e,he⟩
  simp [State.init] at he

theorem reachable_live {s : State} (h : machine.Reachable s) : Live s := by
  refine h.invariant_reachable (I := Live) ?_ fun s a t hr hs ha => live_step (reachable_sound hr) hs (step_cases ha)
  rintro s rfl hchat
  simp [State.init] at hchat

/-- At most one write is outstanding, of the message in front of the queue; the writes are a prefix of
what was given to `handle_send`, and none follows a failed one; the assertions of `initiate_tx` hold;
and between handlers nothing waits that could be sent. -/
theorem send_region {s : State} (h : machine.Reachable s) :
    s.writes.length ≤ 1 ∧
    (∀ w ∈ s.writes, s.sendingState = .sending ∧ ∃ m rest, w.1 = some m ∧ s.txQueue = m :: rest) ∧
    started s.log <+: (submitted s.log).map some ∧
    (∀ before m after, s.log = before ++ .called (.asyncWrite m) :: after → ¬ TxFailed before) ∧
    (∀ a, a = .txIdle ∨ a = .txNoError ∨ a = .txNonEmpty → .asserted a false ∉ s.log) ∧
    (s.state = .chatting → s.ec = none → s.txQueue ≠ [] → s.writes ≠ [] ∨ TxFailed s.log) := by
  obtain ⟨o,ho⟩ := reachable_sound h
  have hwriting : ∀ w ∈ s.writes, s.sendingState = .sending ∧ s.writes = [w] ∧ w.1 = s.txQueue.head? := by
    intro w hw
    obtain ⟨i,hi⟩ := List.mem_iff_getElem?.mp hw
    have hsending := (ho.written hi).1
    refine ⟨hsending,?_⟩
    rcases ho.sending hsending with hone | ⟨hnil,-⟩
    · obtain ⟨x,hx,hhead⟩ := List.map_eq_singleton_iff.mp hone
      obtain rfl : w = x := by simpa [hx] using hw
      exact ⟨hx,hhead⟩
    · simp [hnil] at hw
  refine ⟨?_,?_,?_,?_,?_,?_⟩
  · cases hs : s.writes with
    | nil => simp
    | cons w ws =>
      have hone := (hwriting w (by simp [hs])).2.1
      simp [← hs,hone]
  · intro w hw
    obtain ⟨hsending,-,hhead⟩ := hwriting w hw
    have hne := o.front (ho.busy.mpr hsending)
    rw [ho.queue] at hne
    obtain ⟨m,rest,hm⟩ := List.exists_cons_of_ne_nil hne
    exact ⟨hsending,m,rest,by simpa [hm] using hhead,hm⟩
  · rw [← ho.started,← ho.submitted]
    exact o.started_prefix.map some
  · exact fun before m after hlog => (ho.order before _ after hlog).2.2.2 ⟨m,rfl⟩
  · intro a ha hmem
    obtain ⟨before,after,hlog⟩ := List.append_of_mem hmem
    have horder := ho.order before _ after hlog
    rcases ha with rfl | rfl | rfl
    · exact horder.1 rfl
    · exact horder.2.1 rfl
    · exact horder.2.2.1 rfl
  · intro hchat hec hne
    rcases ho.sending (reachable_live h hchat hec hne) with hone | ⟨-,hfailed⟩
    · left
      intro hnil
      simp [hnil] at hone
    · exact Or.inr hfailed

def twoMessages : List Action :=
  [.send "early",.runTask 0,.runTask 0,.acceptCompletes 0 none,.accepted 0,.send "late",.runTask 0,
    .writeCompletes 0 none,.written 0]

theorem send_region_twoMessages :
    ∃ s, machine.replay State.init twoMessages = some s ∧ started s.log = [some "early",some "late"] ∧
      started s.log <+: (submitted s.log).map some := by
  have hrun : machine.replay State.init twoMessages = some _ := rfl
  exact ⟨_,hrun,rfl,(send_region (Machine.Reachable.of_replay rfl hrun)).2.2.1⟩

end EchoConnection
end BeastWebsocketEcho
