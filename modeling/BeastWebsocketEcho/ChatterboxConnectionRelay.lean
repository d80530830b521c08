import BeastWebsocketEcho.ChatterboxConnection

/-!
# The chatterbox connection as a relay

A connection on which only `run` and `stop` are called sends what it hears, and nothing else. What
it holds between hearing and sending is in `tx_queue_` and in the read that has completed; the message in
front of the queue is on its way as soon as its write has succeeded, before the handler pops it.
-/

namespace BeastWebsocketEcho
namespace ChatterboxConnection

variable {B : Type*} {s t : State B}

def arrived? : Status (Except Error (List B)) → Option (List B)
  | .done (.ok message) => some message
  | _ => none

def Task.isRun : Task B → Bool
  | .handleRun => true
  | _ => false

namespace State

/-- The write of the front message has succeeded, and its handler has not run. -/
def gone (s : State B) : Bool := s.writes.contains (.done none)

def unsent (s : State B) : List (List B) := if s.gone then s.txQueue.tail else s.txQueue

/-- What was heard and not sent, in order. -/
def flow (s : State B) : List (List B) := s.unsent ++ s.reads.filterMap arrived?

/-- What may still become a read: the task, the connect and the handshake on the way to it, and the reads. -/
def batons (s : State B) : ℕ := s.tasks.countP Task.isRun + s.connects.length + s.handshakes.length + s.reads.length

end State

/-- The steps that neither hear nor send. What the handler of a read dispatches to its own strand runs at once. -/
def Action.inside : Action B → Bool
  | .dispatch task _ => match task with
    | .handleStop => true
    | _ => false
  | .readCompletes _ result => readFailed result
  | .writeCompletes _ ec => ec.isSome
  | .read _ inl => inl
  | _ => true

structure Relay (s : State B) : Prop where
  tasks : ∀ msg, .handleSend msg ∉ s.tasks
  buffer : s.rxbuffer = []
  batons : s.batons ≤ 1
  idle : s.sendingState = .sendIdle → s.writes = []
  sending : s.writes = [] ∨ (s.writes.length = 1 ∧ s.txQueue ≠ [])

namespace Relay

theorem frame (h : Relay s) (hsame : (t.rxbuffer,t.sendingState,t.writes,t.txQueue) =
    (s.rxbuffer,s.sendingState,s.writes,s.txQueue)) (htasks : ∀ msg, .handleSend msg ∉ t.tasks)
    (hbatons : t.batons ≤ 1) : Relay t := by
  simp only [Prod.mk.injEq] at hsame
  obtain ⟨hbuffer,hstate,hwrites,hqueue⟩ := hsame
  refine ⟨htasks,by rw [hbuffer,h.buffer],hbatons,?_,?_⟩
  · rw [hstate,hwrites]
    exact h.idle
  · rw [hwrites,hqueue]
    exact h.sending

theorem emit (h : Relay s) (e : Event B) : Relay (s.emit e) := h.frame rfl h.tasks h.batons

theorem tail_append (h : Relay s) (hgone : s.gone = true) (msg : List B) :
    (s.txQueue ++ [msg]).tail = s.txQueue.tail ++ [msg] := by
  rcases h.sending with hnil | ⟨-,hne⟩
  · simp [State.gone,hnil] at hgone
  · exact List.tail_append_of_ne_nil hne

theorem maybeSendNext (h : Relay s) : Relay s.maybeSendNext ∧ s.maybeSendNext.flow = s.flow := by
  unfold State.maybeSendNext
  split
  · exact ⟨h,rfl⟩
  · next hgo =>
    simp only [Bool.or_eq_true,not_or,Bool.not_eq_true,beq_eq_false_iff_ne,List.isEmpty_eq_false_iff] at hgo
    obtain ⟨⟨⟨-,-⟩,hsending⟩,hne⟩ := hgo
    have hidle : s.sendingState = .sendIdle := by
      cases hs : s.sendingState with
      | sendIdle => rfl
      | sending => exact absurd hs hsending
    have hnil := h.idle hidle
    constructor
    · refine ⟨h.tasks,h.buffer,h.batons,by simp [State.initiateTx,State.emit],Or.inr ?_⟩
      exact ⟨by simp [State.initiateTx,State.emit,hnil],hne⟩
    · simp [State.flow,State.unsent,State.gone,State.initiateTx,State.emit,hnil]

theorem handleSend (h : Relay s) (msg : List B) (hreads : s.reads.filterMap arrived? = []) :
    Relay (s.handleSend msg) ∧ (s.handleSend msg).flow = s.flow ++ [msg] := by
  have hpushed : Relay { s with txQueue := s.txQueue ++ [msg] } := by
    refine ⟨h.tasks,h.buffer,h.batons,h.idle,?_⟩
    rcases h.sending with hnil | ⟨hone,-⟩
    · exact Or.inl hnil
    · exact Or.inr ⟨hone,by simp⟩
  obtain ⟨hnext,hflow⟩ := hpushed.maybeSendNext
  refine ⟨hnext,hflow.trans ?_⟩
  by_cases hgone : s.gone = true
  · have htail := h.tail_append hgone msg
    have hgone' : State.gone { s with txQueue := s.txQueue ++ [msg] } = true := hgone
    simp [State.flow,State.unsent,hgone,hgone',hreads,htail]
  · have hgone' : ¬ State.gone { s with txQueue := s.txQueue ++ [msg] } = true := hgone
    simp [State.flow,State.unsent,hgone,hgone',hreads]

theorem arrived?_cancel (st : Status (Except Error (List B))) : arrived? st.cancel = arrived? st := by
  cases st <;> rfl

/-- A cancellation leaves a write that has succeeded on its way. -/
theorem gone_cancel (writes : List (Status ErrorCode)) :
    .done none ∈ writes.map Status.cancel ↔ .done none ∈ writes := by
  have hcancel : ∀ st : Status ErrorCode, st.cancel = .done none ↔ st = .done none := by
    intro st
    cases st <;> simp [Status.cancel]
  simp [hcancel]

theorem handleStop (h : Relay s) : Relay s.handleStop ∧ s.handleStop.flow = s.flow := by
  cases hstate : s.state with
  | chatting =>
    have hstop : s.handleStop = ({ s.emit .stop with
      ec := some .operationAborted, closes := s.closes ++ [Status.pending] } : State B).emit .asyncClose := by
      simp [State.handleStop,State.emit,hstate]
    rw [hstop]
    exact ⟨h.frame rfl h.tasks h.batons,rfl⟩
  | handshaking =>
    have hstop : s.handleStop = ({ s.emit .stop with
      ec := some .operationAborted
      connects := s.connects.map Status.cancel
      handshakes := s.handshakes.map Status.cancel
      reads := s.reads.map Status.cancel
      writes := s.writes.map Status.cancel } : State B).emit .cancel := by
      simp [State.handleStop,State.emit,hstate]
    rw [hstop]
    constructor
    · refine ⟨h.tasks,h.buffer,?_,fun hidle => ?_,?_⟩
      · simpa [State.batons,State.emit] using h.batons
      · simpa [State.emit] using h.idle hidle
      · simpa [State.emit] using h.sending
    · have hreads : (s.reads.map Status.cancel).filterMap arrived? = s.reads.filterMap arrived? := by
        rw [List.filterMap_map]
        congr 1
        funext st
        exact arrived?_cancel st
      have hgone : .done none ∈ s.writes.map Status.cancel ↔ .done none ∈ s.writes := gone_cancel s.writes
      simp only [State.flow,State.unsent,State.gone,State.emit,hreads,List.contains_eq_mem,hgone]

theorem handleRun (h : Relay s) (hbatons : s.batons = 0) : Relay s.handleRun ∧ s.handleRun.flow = s.flow := by
  constructor
  · refine h.frame rfl h.tasks ?_
    simp only [State.batons] at hbatons
    simp [State.batons,State.handleRun,State.emit]
    omega
  · rfl

theorem handleConnect (h : Relay s) (hbatons : s.batons = 0) (ec : ErrorCode) :
    Relay (s.handleConnect ec) ∧ (s.handleConnect ec).flow = s.flow := by
  cases ec with
  | some e => exact ⟨h.emit _,rfl⟩
  | none =>
    constructor
    · refine h.frame rfl h.tasks ?_
      simp only [State.batons] at hbatons
      simp [State.batons,State.handleConnect,State.initiateHandshake,State.emit]
      omega
    · rfl

theorem initiateRx (h : Relay s) (hbatons : s.batons = 0) :
    Relay s.initiateRx ∧ s.initiateRx.flow = s.flow ∧ s.initiateRx.reads = [.pending] := by
  simp only [State.batons,Nat.add_eq_zero_iff,List.length_eq_zero_iff] at hbatons
  obtain ⟨⟨⟨htasks,hconnects⟩,hhandshakes⟩,hreads⟩ := hbatons
  refine ⟨h.frame rfl h.tasks ?_,?_,?_⟩
  · simp [State.batons,State.initiateRx,State.emit,htasks,hconnects,hhandshakes,hreads]
  · simp [State.flow,State.unsent,State.gone,State.initiateRx,State.emit,arrived?]
  · simp [State.initiateRx,State.emit,hreads]

theorem handleHandshake (h : Relay s) (hbatons : s.batons = 0) (ec : ErrorCode) :
    Relay (s.handleHandshake ec) ∧ (s.handleHandshake ec).flow = s.flow := by
  have hemit : Relay (s.emit (.handshakeDone ec)) ∧ (s.emit (.handshakeDone ec)).flow = s.flow := ⟨h.emit _,rfl⟩
  by_cases hgo : s.ec.isSome = true ∨ ec.isSome = true
  · have hsame : s.handleHandshake ec = s.emit (.handshakeDone ec) := by
      rcases hgo with hec | hec <;> simp [State.handleHandshake,State.emit,hec]
    rwa [hsame]
  · have hchats : s.handleHandshake ec =
        { s.emit (.handshakeDone ec) with state := .chatting }.initiateRx.maybeSendNext := by
      simp only [not_or,Bool.not_eq_true] at hgo
      simp [State.handleHandshake,State.emit,hgo]
    have hchatting : Relay { s.emit (.handshakeDone ec) with state := .chatting } := h.frame rfl h.tasks h.batons
    obtain ⟨hrx,hflow,-⟩ := hchatting.initiateRx hbatons
    obtain ⟨hnext,hflow'⟩ := hrx.maybeSendNext
    rw [hchats]
    exact ⟨hnext,hflow'.trans hflow⟩

theorem handleRx (h : Relay s) (hbatons : s.batons = 0) (bytes : List B) :
    Relay (s.handleRx (.ok bytes) true) ∧ (s.handleRx (.ok bytes) true).flow = s.flow ++ [bytes] := by
  have hread :
      Relay { s.emit (.readDone none) with rxbuffer := (s.rxbuffer ++ bytes).drop (s.rxbuffer ++ bytes).length } :=
    ⟨h.tasks,by simp,h.batons,h.idle,h.sending⟩
  obtain ⟨hrx,hflow,hreads⟩ := hread.initiateRx hbatons
  obtain ⟨hsent,hflow'⟩ := hrx.handleSend (s.rxbuffer ++ bytes) (by rw [hreads]; rfl)
  refine ⟨hsent,hflow'.trans ?_⟩
  rw [hflow,h.buffer]
  rfl

theorem handleTx (h : Relay s) {st : Status ErrorCode} {ec : ErrorCode} (hw : s.writes = [st]) (hst : st = .done ec) :
    Relay ({ s with writes := [] }.handleTx ec) ∧ ({ s with writes := [] }.handleTx ec).flow = s.flow := by
  subst hst
  cases ec with
  | some e =>
    constructor
    · exact ⟨h.tasks,h.buffer,h.batons,fun _ => rfl,Or.inl rfl⟩
    · simp [State.flow,State.unsent,State.gone,State.handleTx,State.emit,hw]
  | none =>
    have hpopped : Relay ({ s.emit (.writeDone none) with
      writes := [], txQueue := s.txQueue.tail, sendingState := .sendIdle } : State B) :=
      ⟨h.tasks,h.buffer,h.batons,fun _ => rfl,Or.inl rfl⟩
    obtain ⟨hnext,hflow⟩ := hpopped.maybeSendNext
    refine ⟨hnext,hflow.trans ?_⟩
    simp [State.flow,State.unsent,State.gone,State.emit,hw]

theorem taken {R : Type*} {r : R} {ops ops' : List (Status R)} {i n : ℕ} (h : takeAt ops i = some (r,ops'))
    (hn : n + ops.length ≤ 1) : n = 0 ∧ ops' = [] ∧ ops = [.done r] := by
  obtain ⟨hget,rfl⟩ := takeAt_cases h
  cases ops with
  | nil => simp at hget
  | cons st ops =>
    simp only [List.length_cons] at hn
    have hnil : ops = [] := List.length_eq_zero_iff.mp (by omega)
    subst hnil
    cases i with
    | zero => exact ⟨by omega,rfl,by simpa using hget⟩
    | succ i => simp at hget

theorem fresh : Relay (State.init : State B) := ⟨by simp [State.init],rfl,Nat.zero_le 1,fun _ => rfl,Or.inl rfl⟩

theorem init (inl : Bool) : Relay ((State.init : State B).dispatch .handleRun inl) := by
  cases inl with
  | true => exact (fresh.handleRun rfl).1
  | false => exact fresh.frame rfl (by simp [State.dispatch,State.init]) (Nat.le_refl 1)

theorem completed {R : Type*} {failed : R → Bool} {r : R} {ops ops' : List (Status R)} {i : ℕ}
    (h : completeAt failed r ops i = some ops') (hone : ops.length ≤ 1) :
    ops' = [.done r] ∧ (ops = [.pending] ∨ ops = [.cancelled] ∧ failed r = true) := by
  obtain ⟨st',hst,rfl⟩ := Option.map_eq_some_iff.mp h
  obtain ⟨st,hget,hcomplete⟩ := Option.bind_eq_some_iff.mp hst
  obtain ⟨rfl,hold⟩ := Status.complete_cases hcomplete
  cases ops with
  | nil => simp at hget
  | cons st₀ ops =>
    have hnil : ops = [] := List.length_eq_zero_iff.mp (by simpa using hone)
    subst hnil
    cases i with
    | zero =>
      obtain rfl : st₀ = st := by simpa using hget
      exact ⟨rfl,by simpa using hold⟩
    | succ i => simp at hget

theorem writes_le (h : Relay s) : s.writes.length ≤ 1 := by
  rcases h.sending with hnil | ⟨hone,-⟩
  · simp [hnil]
  · omega

theorem reads_le (h : Relay s) : s.reads.length ≤ 1 := by
  have hbatons := h.batons
  simp only [State.batons] at hbatons
  omega

theorem hears (h : Relay s) {i : ℕ} {message : List B} (ha : step s (.readCompletes i (.ok message)) = some t) :
    Relay t ∧ t.flow = s.flow ++ [message] := by
  obtain ⟨ops,hops,rfl⟩ := Option.map_eq_some_iff.mp ha
  obtain ⟨rfl,hold⟩ := completed hops h.reads_le
  have hpending : s.reads = [.pending] := by simpa [readFailed] using hold
  constructor
  · refine h.frame rfl h.tasks ?_
    simpa [State.batons,hpending] using h.batons
  · simp [State.flow,State.unsent,State.gone,hpending,arrived?]

theorem sends (h : Relay s) {i : ℕ} (ha : step s (.writeCompletes i none) = some t) :
    ∃ message, s.txQueue.head? = some message ∧ Relay t ∧ s.flow = message :: t.flow := by
  obtain ⟨ops,hops,rfl⟩ := Option.map_eq_some_iff.mp ha
  obtain ⟨rfl,hold⟩ := completed hops h.writes_le
  have hpending : s.writes = [.pending] := by simpa using hold
  have hne : s.txQueue ≠ [] := by
    rcases h.sending with hnil | ⟨-,hne⟩
    · simp [hnil] at hpending
    · exact hne
  obtain ⟨message,rest,hqueue⟩ := List.exists_cons_of_ne_nil hne
  refine ⟨message,by simp [hqueue],⟨h.tasks,h.buffer,h.batons,fun hidle => ?_,Or.inr ⟨rfl,hne⟩⟩,?_⟩
  · simp [h.idle hidle] at hpending
  · simp [State.flow,State.unsent,State.gone,hpending,hqueue]

theorem completes (h : Relay s) (hsame : (t.rxbuffer,t.sendingState,t.txQueue,t.tasks) =
    (s.rxbuffer,s.sendingState,s.txQueue,s.tasks)) (hbatons : t.batons = s.batons)
    (hwrites : t.writes.length = s.writes.length) (hgone : t.gone = s.gone)
    (hreads : t.reads.filterMap arrived? = s.reads.filterMap arrived?) : Relay t ∧ t.flow = s.flow := by
  simp only [Prod.mk.injEq] at hsame
  obtain ⟨hbuffer,hstate,hqueue,htasks⟩ := hsame
  have hnil : t.writes = [] ↔ s.writes = [] := by
    rw [← List.length_eq_zero_iff,hwrites,List.length_eq_zero_iff]
  constructor
  · refine ⟨by rw [htasks]; exact h.tasks,by rw [hbuffer,h.buffer],by rw [hbatons]; exact h.batons,?_,?_⟩
    · rw [hstate,hnil]
      exact h.idle
    · rw [hnil,hwrites,hqueue]
      exact h.sending
  · simp only [State.flow,State.unsent,hgone,hqueue,hreads]

theorem stays (h : Relay s) {a : Action B} (hin : a.inside = true) (ha : step s a = some t) :
    Relay t ∧ (t.flow = s.flow) := by
  have hbatons := h.batons
  simp only [State.batons] at hbatons
  cases a with
  | dispatch task inl =>
    cases task with
    | handleStop =>
      obtain rfl := Option.some.inj ha
      cases inl with
      | true => exact h.handleStop
      | false =>
        have htasks : ∀ msg, .handleSend msg ∉ s.tasks ++ [Task.handleStop] := by simpa using h.tasks
        exact ⟨h.frame rfl htasks (by simpa [State.batons,State.dispatch,Task.isRun] using h.batons),rfl⟩
    | _ => cases hin
  | runTask i =>
    obtain ⟨task,htask,rfl⟩ := Option.map_eq_some_iff.mp ha
    have hquiet : ∀ msg, .handleSend msg ∉ s.tasks.eraseIdx i := fun msg hmsg =>
        h.tasks msg (List.mem_of_mem_eraseIdx hmsg)
    have hperm := (List.getElem_cons_eraseIdx_perm (List.getElem?_eq_some_iff.mp htask).1).countP_eq Task.isRun
    rw [(List.getElem?_eq_some_iff.mp htask).2,List.countP_cons] at hperm
    cases task with
    | handleRun =>
      have hfree : State.batons { s with tasks := s.tasks.eraseIdx i } = 0 := by
        simp only [State.batons]
        simp only [Task.isRun,if_true] at hperm
        omega
      exact Relay.handleRun (h.frame rfl hquiet (by omega)) hfree
    | handleStop =>
      refine Relay.handleStop (h.frame rfl hquiet ?_)
      simp only [State.batons]
      omega
    | handleSend msg => exact absurd (List.mem_of_getElem? htask) (h.tasks msg)
  | connectCompletes i ec =>
    obtain ⟨ops,hops,rfl⟩ := Option.map_eq_some_iff.mp ha
    exact h.completes rfl (by simp [State.batons,length_completeAt hops]) rfl rfl rfl
  | handshakeCompletes i ec =>
    obtain ⟨ops,hops,rfl⟩ := Option.map_eq_some_iff.mp ha
    exact h.completes rfl (by simp [State.batons,length_completeAt hops]) rfl rfl rfl
  | readCompletes i r =>
    obtain ⟨ops,hops,rfl⟩ := Option.map_eq_some_iff.mp ha
    refine h.completes rfl (by simp [State.batons,length_completeAt hops]) rfl rfl ?_
    obtain ⟨rfl,hold⟩ := completed hops h.reads_le
    cases r with
    | ok message => cases hin
    | error e =>
      change [] = s.reads.filterMap arrived?
      rcases hold with hold | ⟨hold,-⟩
      · rw [hold]
        rfl
      · rw [hold]
        rfl
  | writeCompletes i ec =>
    obtain ⟨ops,hops,rfl⟩ := Option.map_eq_some_iff.mp ha
    refine h.completes rfl rfl (length_completeAt hops) ?_ rfl
    obtain ⟨rfl,hold⟩ := completed hops h.writes_le
    cases ec with
    | none => cases hin
    | some e => rcases hold with hold | ⟨hold,-⟩ <;> simp [State.gone,hold]
  | closeCompletes i ec =>
    obtain ⟨ops,hops,rfl⟩ := Option.map_eq_some_iff.mp ha
    exact h.completes rfl rfl rfl rfl rfl
  | connected i =>
    obtain ⟨⟨ec,ops⟩,hx,rfl⟩ := Option.map_eq_some_iff.mp ha
    obtain ⟨hzero,rfl,-⟩ := taken (n := s.tasks.countP Task.isRun + s.handshakes.length + s.reads.length) hx (by omega)
    have hfree : State.batons { s with connects := [] } = 0 := by
      simp only [State.batons,List.length_nil]
      omega
    exact Relay.handleConnect (s := { s with connects := [] }) (h.frame rfl h.tasks (by omega)) hfree ec
  | handshook i =>
    obtain ⟨⟨ec,ops⟩,hx,rfl⟩ := Option.map_eq_some_iff.mp ha
    obtain ⟨hzero,rfl,-⟩ := taken (n := s.tasks.countP Task.isRun + s.connects.length + s.reads.length) hx (by omega)
    have hfree : State.batons { s with handshakes := [] } = 0 := by
      simp only [State.batons,List.length_nil]
      omega
    exact Relay.handleHandshake (s := { s with handshakes := [] }) (h.frame rfl h.tasks (by omega)) hfree ec
  | read i inl =>
    obtain rfl : inl = true := hin
    obtain ⟨⟨r,ops⟩,hx,rfl⟩ := Option.map_eq_some_iff.mp ha
    obtain ⟨hzero,rfl,hreads⟩ := taken (n := s.tasks.countP Task.isRun + s.connects.length + s.handshakes.length) hx
        hbatons
    have hfree : State.batons { s with reads := [] } = 0 := by
      simp only [State.batons,List.length_nil]
      omega
    have htaken : Relay { s with reads := [] } := h.frame rfl h.tasks (by omega)
    cases r with
    | error e =>
        exact ⟨htaken.emit _,by simp [State.flow,State.unsent,State.gone,State.handleRx,State.emit,hreads,arrived?]⟩
    | ok bytes =>
      obtain ⟨hrx,hflow⟩ := htaken.handleRx hfree bytes
      refine ⟨hrx,hflow.trans ?_⟩
      simp [State.flow,State.unsent,State.gone,hreads,arrived?]
  | written i =>
    obtain ⟨⟨ec,ops⟩,hx,rfl⟩ := Option.map_eq_some_iff.mp ha
    obtain ⟨-,rfl,hwrites⟩ := taken (n := 0) hx (by simpa using h.writes_le)
    exact h.handleTx hwrites rfl
  | closed i =>
    obtain ⟨x,hx,rfl⟩ := Option.map_eq_some_iff.mp ha
    exact ⟨h.frame rfl h.tasks h.batons,rfl⟩

end Relay
end ChatterboxConnection
end BeastWebsocketEcho
