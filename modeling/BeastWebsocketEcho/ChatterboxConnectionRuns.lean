import BeastWebsocketEcho.Chronicle
import BeastWebsocketEcho.ChatterboxConnection

/-!
# What a stopped connection still does

`handle_stop` sets `ec_`, which `handle_handshake` and `maybe_send_next` look at and
`handle_connect` and `handle_rx` do not. The law of a quiet connection is broken by a step
exactly if that step crosses the stop.
-/

namespace BeastWebsocketEcho
namespace ChatterboxConnection

variable {B : Type*} {s t : State B}

open State

/-- After a stop no handshake, read or write is started; assertions hold; the stream is closed once. -/
def QuietOrder (before : List (Event B)) : Event B → Prop
  | .asyncHandshake => .stop ∉ before
  | .asyncRead => .stop ∉ before
  | .asyncWrite _ => .stop ∉ before
  | .asyncClose => .asyncClose ∉ before
  | .asserted _ holds => holds = true
  | _ => True

abbrev Quiet (s : State B) : Prop := Chronicle QuietOrder s.log

section Logs

variable (s : State B)

theorem log_initiateRx : s.initiateRx.log = ((s.log ++ [Event.asserted .rxChatting (s.state == .chatting)]) ++
    [Event.asserted .rxNoError s.ec.isNone]) ++ [Event.asyncRead] := rfl

theorem log_initiateTx : s.initiateTx.log = (((s.log ++ [Event.asserted .txIdle (s.sendingState == .sendIdle)]) ++
    [Event.asserted .txNoError s.ec.isNone]) ++ [Event.asserted .txNonEmpty (!s.txQueue.isEmpty)]) ++
      [Event.asyncWrite s.txQueue.head?] := rfl

theorem log_handleRun : s.handleRun.log = (s.log ++ [Event.run]) ++ [Event.asyncConnect] := rfl

end Logs

/-- What `ec_` and `state_` say about the log. -/
structure Region (s : State B) : Prop where
  stopped : s.ec.isSome = true ↔ .stop ∈ s.log
  closed : .asyncClose ∈ s.log ↔ s.state = .chatting ∧ s.ec.isSome = true
  reads : s.reads ≠ [] → s.state = .chatting

/-- An event other than those that `ec_` and `state_` record. -/
def Event.plain : Event B → Bool
  | .stop => false
  | .asyncClose => false
  | _ => true

namespace Region

theorem init : Region (State.init : State B) where
  stopped := by simp [State.init]
  closed := by simp [State.init]
  reads := by simp [State.init]

theorem frame (h : Region s) (hsame : (t.ec,t.state) = (s.ec,s.state)) (hreads : t.reads ≠ [] → s.state = .chatting)
    (hlog : Grows (fun e => e.plain = true) s.log t.log) : Region t := by
  obtain ⟨hec,hstate⟩ := Prod.mk.inj hsame
  obtain ⟨k,hk,hplain⟩ := hlog
  have hstop : Event.stop ∉ k := fun hmem => by simpa [Event.plain] using hplain _ hmem
  have hclose : Event.asyncClose ∉ k := fun hmem => by simpa [Event.plain] using hplain _ hmem
  constructor
  · rw [hec,hk,List.mem_append,or_iff_left hstop]
    exact h.stopped
  · rw [hec,hstate,hk,List.mem_append,or_iff_left hclose]
    exact h.closed
  · rw [hstate]
    exact hreads

theorem emit (h : Region s) {e : Event B} (he : e.plain = true) : Region (s.emit e) :=
  h.frame rfl h.reads ((Grows.refl s.log).snoc he)

theorem initiateRx (h : Region s) (hstate : s.state = .chatting) : Region s.initiateRx := by
  refine h.frame rfl (fun _ => hstate) ?_
  rw [log_initiateRx]
  exact (((Grows.refl _).snoc (by rfl)).snoc (by rfl)).snoc (by rfl)

theorem maybeSendNext (h : Region s) : Region s.maybeSendNext := by
  unfold State.maybeSendNext
  split
  · exact h
  · refine h.frame rfl h.reads ?_
    rw [log_initiateTx]
    exact ((((Grows.refl _).snoc (by rfl)).snoc (by rfl)).snoc (by rfl)).snoc (by rfl)

theorem handleSend (h : Region s) (msg : List B) : Region (s.handleSend msg) := by
  have hqueued : Region { s with txQueue := s.txQueue ++ [msg] } := h.frame rfl h.reads (Grows.refl s.log)
  exact hqueued.maybeSendNext

theorem handleStop (h : Region s) : Region s.handleStop := by
  cases hstate : s.state with
  | chatting =>
    simp only [State.handleStop,State.emit,hstate]
    constructor
    · simp
    · simp
    · exact fun _ => rfl
  | handshaking =>
    have hopen : .asyncClose ∉ s.log := by
      rw [h.closed]
      rintro ⟨hchatting,-⟩
      cases hchatting.symm.trans hstate
    have hnone : s.reads = [] := by
      by_contra hreads
      cases (h.reads hreads).symm.trans hstate
    simp only [State.handleStop,State.emit,hstate]
    constructor
    · simp
    · simp [hopen]
    · simp [hnone]

theorem execute (h : Region s) (task : Task B) : Region (s.execute task) := by
  cases task with
  | handleRun =>
    refine h.frame rfl h.reads ?_
    rw [State.execute,log_handleRun]
    exact ((Grows.refl _).snoc (by rfl)).snoc (by rfl)
  | handleStop => exact h.handleStop
  | handleSend msg => exact h.handleSend msg

theorem dispatch (h : Region s) (task : Task B) (inl : Bool) : Region (s.dispatch task inl) := by
  cases inl with
  | true => exact h.execute task
  | false => exact h.frame rfl h.reads (Grows.refl s.log)

theorem handleConnect (h : Region s) (ec : ErrorCode) : Region (s.handleConnect ec) := by
  have hdone : Region (s.emit (.connectDone ec)) := h.emit rfl
  simp only [State.handleConnect]
  split
  · exact hdone.frame rfl hdone.reads ((Grows.refl _).snoc rfl)
  · exact hdone

/-- The connection begins to chat if it was not stopped, and then nothing was closed. -/
theorem handleHandshake (h : Region s) (ec : ErrorCode) : Region (s.handleHandshake ec) := by
  have hdone : Region (s.emit (.handshakeDone ec)) := h.emit rfl
  simp only [State.handleHandshake]
  split
  · exact hdone
  · next hgo =>
    split
    · exact hdone
    · have hopen : .asyncClose ∉ (s.emit (.handshakeDone ec)).log := by
        rw [hdone.closed]
        exact fun hclosed => hgo hclosed.2
      have hchatting : Region { s.emit (.handshakeDone ec) with state := .chatting } := by
        refine ⟨hdone.stopped,?_,fun _ => rfl⟩
        exact iff_of_false hopen fun hclosed => hgo hclosed.2
      exact (hchatting.initiateRx rfl).maybeSendNext

theorem handleRx (h : Region s) (hstate : s.state = .chatting) (result : Except Error (List B)) (inl : Bool) :
    Region (s.handleRx result inl) := by
  cases result with
  | error ec => exact h.emit rfl
  | ok bytes =>
    have hdone : Region (s.emit (.readDone none)) := h.emit rfl
    have hconsumed (rest : List B) : Region { s.emit (.readDone none) with rxbuffer := rest } :=
      hdone.frame rfl hdone.reads (Grows.refl _)
    exact ((hconsumed _).initiateRx hstate).dispatch _ inl

theorem handleTx (h : Region s) (ec : ErrorCode) : Region (s.handleTx ec) := by
  have hdone : Region (s.emit (.writeDone ec)) := h.emit rfl
  simp only [State.handleTx]
  split
  · exact hdone
  · have hpopped (rest : List (List B)) :
        Region { s.emit (.writeDone ec) with txQueue := rest, sendingState := .sendIdle } :=
      hdone.frame rfl hdone.reads (Grows.refl _)
    exact (hpopped _).maybeSendNext

end Region

/-! ## Which steps break the law -/

theorem quiet_emit_iff {e : Event B} (he : ∀ before, QuietOrder before e) : Quiet (s.emit e) ↔ Quiet s := by
  rw [Quiet,emit,Chronicle.snoc_iff]
  exact and_iff_left (he _)

theorem quiet_initiateRx_iff (h : Region s) (hstate : s.state = .chatting) :
    Quiet s.initiateRx ↔ Quiet s ∧ s.ec.isNone = true := by
  rw [Quiet,log_initiateRx,Chronicle.snoc_iff,Chronicle.snoc_iff,Chronicle.snoc_iff]
  have hstopped : .stop ∉ s.log ↔ s.ec.isNone = true := by simp [← h.stopped]
  simp [QuietOrder,hstate,hstopped]

theorem quiet_maybeSendNext_iff (h : Region s) : Quiet s.maybeSendNext ↔ Quiet s := by
  unfold maybeSendNext
  split
  · exact Iff.rfl
  · next hgo =>
    simp only [Bool.or_eq_true,not_or] at hgo
    obtain ⟨⟨⟨hec,-⟩,hidle⟩,hqueue⟩ := hgo
    have hstopped : .stop ∉ s.log := fun hmem => hec (h.stopped.mpr hmem)
    have hsend : s.sendingState = .sendIdle := by
      cases hs : s.sendingState with
      | sendIdle => rfl
      | sending => simp [hs] at hidle
    rw [Quiet,log_initiateTx,Chronicle.snoc_iff,Chronicle.snoc_iff,Chronicle.snoc_iff,Chronicle.snoc_iff]
    simpa [QuietOrder,hsend,hstopped,hqueue] using fun _ => hec

theorem quiet_handleSend_iff (h : Region s) (msg : List B) : Quiet (s.handleSend msg) ↔ Quiet s := by
  have hqueued : Region { s with txQueue := s.txQueue ++ [msg] } := h.frame rfl h.reads (Grows.refl s.log)
  exact quiet_maybeSendNext_iff hqueued

/-- A second stop closes the stream again. -/
theorem quiet_handleStop_iff (h : Region s) :
    Quiet s.handleStop ↔ Quiet s ∧ (s.state = .chatting → s.ec.isNone = true) := by
  cases hstate : s.state with
  | chatting =>
    have hopen : .asyncClose ∈ s.log ↔ s.ec.isSome = true := by simp [h.closed,hstate]
    simp only [handleStop,emit,hstate]
    rw [Quiet,Chronicle.snoc_iff,Chronicle.snoc_iff]
    simp [QuietOrder,hopen]
  | handshaking =>
    simp only [handleStop,emit,hstate]
    rw [Quiet,Chronicle.snoc_iff,Chronicle.snoc_iff]
    simp [QuietOrder]

/-- A task that keeps the law: not a stop of a chatting connection that was stopped before. -/
def taskInTime (s : State B) : Task B → Bool
  | .handleStop => s.state != .chatting || s.ec.isNone
  | _ => true

theorem quiet_execute_iff (h : Region s) (task : Task B) :
    Quiet (s.execute task) ↔ Quiet s ∧ taskInTime s task = true := by
  cases task with
  | handleRun =>
    rw [execute,Quiet,log_handleRun,Chronicle.snoc_iff,Chronicle.snoc_iff]
    simp [QuietOrder,taskInTime]
  | handleStop =>
    rw [execute,quiet_handleStop_iff h,imp_iff_not_or]
    simp [taskInTime]
  | handleSend msg =>
    rw [execute,quiet_handleSend_iff h]
    simp [taskInTime]

theorem quiet_handleConnect_iff (h : Region s) (ec : ErrorCode) :
    Quiet (s.handleConnect ec) ↔ Quiet s ∧ (ec = none → s.ec.isNone = true) := by
  have hstopped : .stop ∉ s.log ↔ s.ec.isNone = true := by simp [← h.stopped]
  cases ec with
  | some e => simpa [handleConnect] using quiet_emit_iff (s := s) (e := .connectDone (some e)) fun _ => trivial
  | none =>
    simp only [handleConnect,initiateHandshake,emit]
    rw [if_pos (by rfl),Quiet,Chronicle.snoc_iff,Chronicle.snoc_iff]
    simp [QuietOrder,hstopped]

/-- `handle_handshake` looks at `ec_`. -/
theorem quiet_handleHandshake_iff (h : Region s) (ec : ErrorCode) : Quiet (s.handleHandshake ec) ↔ Quiet s := by
  have hdone : Quiet (s.emit (.handshakeDone ec)) ↔ Quiet s := quiet_emit_iff fun _ => trivial
  simp only [handleHandshake]
  split
  · exact hdone
  · next hgo =>
    split
    · exact hdone
    · have hec : (s.emit (.handshakeDone ec)).ec.isNone = true := by simpa using hgo
      have hregion : Region (s.emit (.handshakeDone ec)) := h.emit rfl
      have hopen : .asyncClose ∉ (s.emit (.handshakeDone ec)).log := fun hmem => hgo (hregion.closed.mp hmem).2
      have hchatting : Region { s.emit (.handshakeDone ec) with state := .chatting } :=
        ⟨hregion.stopped,iff_of_false hopen fun hclosed => hgo hclosed.2,fun _ => rfl⟩
      rw [quiet_maybeSendNext_iff (hchatting.initiateRx rfl),quiet_initiateRx_iff hchatting rfl]
      exact (and_iff_left hec).trans hdone

theorem quiet_handleRx_iff (h : Region s) (hstate : s.state = .chatting) (result : Except Error (List B)) (inl : Bool) :
    Quiet (s.handleRx result inl) ↔ Quiet s ∧ (readFailed result = false → s.ec.isNone = true) := by
  cases result with
  | error ec => simpa [handleRx,readFailed] using quiet_emit_iff (s := s) (e := .readDone (some ec)) fun _ => trivial
  | ok bytes =>
    have hdone : Quiet (s.emit (.readDone none)) ↔ Quiet s := quiet_emit_iff fun _ => trivial
    have hregion : Region (s.emit (.readDone none)) := h.emit rfl
    have hconsumed (rest : List B) : Region { s.emit (.readDone none) with rxbuffer := rest } :=
      hregion.frame rfl hregion.reads (Grows.refl _)
    have hread (rest : List B) : Quiet { s.emit (.readDone none) with rxbuffer := rest }.initiateRx ↔
        Quiet s ∧ s.ec.isNone = true := by
      rw [quiet_initiateRx_iff (hconsumed rest) hstate]
      exact and_congr_left' hdone
    cases inl with
    | true =>
      have hsent := quiet_handleSend_iff ((hconsumed []).initiateRx hstate) (s.rxbuffer ++ bytes)
      simpa [handleRx,dispatch,execute,readFailed] using hsent.trans (hread [])
    | false => simpa [handleRx,dispatch,readFailed] using hread []

theorem quiet_handleTx_iff (h : Region s) (ec : ErrorCode) : Quiet (s.handleTx ec) ↔ Quiet s := by
  have hdone : Quiet (s.emit (.writeDone ec)) ↔ Quiet s := quiet_emit_iff fun _ => trivial
  have hregion : Region (s.emit (.writeDone ec)) := h.emit rfl
  simp only [handleTx]
  split
  · exact hdone
  · have hpopped (rest : List (List B)) :
        Region { s.emit (.writeDone ec) with txQueue := rest, sendingState := .sendIdle } :=
      hregion.frame rfl hregion.reads (Grows.refl _)
    exact (quiet_maybeSendNext_iff (hpopped _)).trans hdone

/-- A step that does not cross a stop: no connect and no read that succeeded is handled after one, and a connection
that chats is not stopped again. -/
def inTime (s : State B) : Action B → Bool
  | .dispatch task true => taskInTime s task
  | .runTask i => ((s.tasks[i]?).map (taskInTime s)).getD true
  | .connected i => ((takeAt s.connects i).map fun x => x.1.isSome || s.ec.isNone).getD true
  | .read i _ => ((takeAt s.reads i).map fun x => readFailed x.1 || s.ec.isNone).getD true
  | _ => true

theorem reads_ne_nil {i : ℕ} {x : Except Error (List B) × List (Status (Except Error (List B)))}
    (hx : takeAt s.reads i = some x) : s.reads ≠ [] := by
  intro hnil
  simp [takeAt,hnil] at hx

theorem region_step (h : Region s) {a : Action B} (ha : step s a = some t) : Region t := by
  cases a with
  | dispatch task inl =>
    obtain rfl := Option.some.inj ha
    exact h.dispatch task inl
  | runTask i =>
    obtain ⟨task,htask,rfl⟩ := Option.map_eq_some_iff.mp ha
    exact Region.execute (s := { s with tasks := s.tasks.eraseIdx i }) (h.frame rfl h.reads (Grows.refl _)) task
  | readCompletes i r =>
    obtain ⟨ops,hops,rfl⟩ := Option.map_eq_some_iff.mp ha
    refine h.frame rfl (fun hne => h.reads ?_) (Grows.refl _)
    intro hnil
    have hlength := length_completeAt hops
    rw [hnil] at hlength
    exact hne (List.length_eq_zero_iff.mp hlength)
  | connected i =>
    obtain ⟨x,hx,rfl⟩ := Option.map_eq_some_iff.mp ha
    exact Region.handleConnect (s := { s with connects := x.2 }) (h.frame rfl h.reads (Grows.refl _)) x.1
  | handshook i =>
    obtain ⟨x,hx,rfl⟩ := Option.map_eq_some_iff.mp ha
    exact Region.handleHandshake (s := { s with handshakes := x.2 }) (h.frame rfl h.reads (Grows.refl _)) x.1
  | read i inl =>
    obtain ⟨x,hx,rfl⟩ := Option.map_eq_some_iff.mp ha
    have hstate := h.reads (reads_ne_nil hx)
    exact Region.handleRx (s := { s with reads := x.2 }) (h.frame rfl (fun _ => hstate) (Grows.refl _)) hstate x.1 inl
  | written i =>
    obtain ⟨x,hx,rfl⟩ := Option.map_eq_some_iff.mp ha
    exact Region.handleTx (s := { s with writes := x.2 }) (h.frame rfl h.reads (Grows.refl _)) x.1
  | closed i =>
    obtain ⟨x,hx,rfl⟩ := Option.map_eq_some_iff.mp ha
    exact Region.emit (s := { s with closes := x.2 }) (h.frame rfl h.reads (Grows.refl _)) rfl
  | _ =>
    obtain ⟨ops,hops,rfl⟩ := Option.map_eq_some_iff.mp ha
    exact h.frame rfl h.reads (Grows.refl _)

theorem quiet_step_iff (h : Region s) {a : Action B} (ha : step s a = some t) :
    Quiet t ↔ Quiet s ∧ inTime s a = true := by
  cases a with
  | dispatch task inl =>
    obtain rfl := Option.some.inj ha
    cases inl with
    | true => exact quiet_execute_iff h task
    | false => exact (and_iff_left rfl).symm
  | runTask i =>
    obtain ⟨task,htask,rfl⟩ := Option.map_eq_some_iff.mp ha
    have htaken : Region { s with tasks := s.tasks.eraseIdx i } := h.frame rfl h.reads (Grows.refl _)
    rw [quiet_execute_iff htaken task]
    simp only [inTime,htask]
    exact Iff.rfl
  | connected i =>
    obtain ⟨⟨ec,ops⟩,hx,rfl⟩ := Option.map_eq_some_iff.mp ha
    have htaken : Region { s with connects := ops } := h.frame rfl h.reads (Grows.refl _)
    rw [quiet_handleConnect_iff htaken ec]
    cases ec <;> simp [inTime,hx]
  | handshook i =>
    obtain ⟨x,hx,rfl⟩ := Option.map_eq_some_iff.mp ha
    have htaken : Region { s with handshakes := x.2 } := h.frame rfl h.reads (Grows.refl _)
    rw [quiet_handleHandshake_iff htaken x.1]
    exact (and_iff_left rfl).symm
  | read i inl =>
    obtain ⟨⟨result,ops⟩,hx,rfl⟩ := Option.map_eq_some_iff.mp ha
    have hstate := h.reads (reads_ne_nil hx)
    have htaken : Region { s with reads := ops } := h.frame rfl (fun _ => hstate) (Grows.refl _)
    rw [quiet_handleRx_iff htaken hstate result inl]
    cases result <;> simp [inTime,hx,readFailed]
  | written i =>
    obtain ⟨x,hx,rfl⟩ := Option.map_eq_some_iff.mp ha
    have htaken : Region { s with writes := x.2 } := h.frame rfl h.reads (Grows.refl _)
    rw [quiet_handleTx_iff htaken x.1]
    exact (and_iff_left rfl).symm
  | closed i =>
    obtain ⟨x,hx,rfl⟩ := Option.map_eq_some_iff.mp ha
    have hkept : Quiet ({ s with closes := x.2 }.emit (.closeDone x.1)) ↔ Quiet s := quiet_emit_iff fun _ => trivial
    exact hkept.trans (and_iff_left rfl).symm
  | _ =>
    obtain ⟨ops,hops,rfl⟩ := Option.map_eq_some_iff.mp ha
    exact (and_iff_left rfl).symm

/-- A run keeps the law of a quiet connection exactly if none of its steps crosses a stop. -/
theorem goes_quiet_iff {as : List (Action B)} (h : machine.Exec State.init as s) :
    Quiet s ↔ (machine.restrict inTime).Exec State.init as s := by
  rw [h.restrict_iff (I := Region) (P := Quiet) (fun s a t hs ha => region_step hs ha)
    (fun s a t hs ha => quiet_step_iff hs ha) Region.init]
  exact and_iff_right Chronicle.nil

def echoAndStop : List (Action ℕ) :=
  [.dispatch .handleRun true,.connectCompletes 0 none,.connected 0,.handshakeCompletes 0 none,.handshook 0,
    .readCompletes 0 (.ok [7]),.read 0 true,.writeCompletes 0 none,.dispatch .handleStop false,.runTask 0,
    .readCompletes 0 (.error .closed),.written 0,.read 0 true,.dispatch (.handleSend [8]) true]

theorem goes_quiet_echoAndStop : ∃ s, machine.replay State.init echoAndStop = some s ∧
    (Quiet s ↔ (machine.restrict inTime).Exec State.init echoAndStop s) :=
  have hrun : machine.replay State.init echoAndStop = some _ := rfl
  ⟨_,rfl,goes_quiet_iff (Machine.Exec.of_replay hrun)⟩

def connectCrossesStop : List (Action ℕ) :=
  [.dispatch .handleRun true,.connectCompletes 0 none,.dispatch .handleStop true,.connected 0]

theorem handshake_after_stop : ¬ ∀ s : State ℕ, machine.Reachable s → Quiet s := by
  intro h
  have hrun : machine.replay State.init connectCrossesStop = some _ := rfl
  have hquiet := h _ (Machine.Reachable.of_replay rfl hrun)
  have hstarted := hquiet [.run,.asyncConnect,.stop,.cancel,.connectDone none] .asyncHandshake [] rfl
  exact hstarted (by simp)

end ChatterboxConnection
end BeastWebsocketEcho
