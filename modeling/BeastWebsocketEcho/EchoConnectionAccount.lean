import BeastWebsocketEcho.Callbacks
import BeastWebsocketEcho.EchoConnectionSend
import Mathlib.Algebra.Order.Group.Multiset

/-!
# What an echo connection holds

Between hearing a message and sending it the connection holds it: in the read that has completed, in a
task, or in `tx_queue_`. Beside what it hears it says only the greetings that it was given at the start and
the lines of the countdown, each of which is said once.
-/

namespace BeastWebsocketEcho
namespace EchoConnection

variable {s t : State}

def Task.sent? : Task → Option (List Char)
  | .handleSend msg => some msg.toList
  | _ => none

def arrived? : Status (Except Error (List Char)) → Option (List Char)
  | .done (.ok bytes) => some bytes
  | _ => none

namespace State

/-- The write of the front message has succeeded, and its handler has not run. -/
def gone (s : State) : Bool := (s.writes.map Prod.snd).contains (.done none)

def unsent (s : State) : List String := if s.gone then s.txQueue.tail else s.txQueue

def held (s : State) : Multiset (List Char) :=
  s.tasks.filterMap Task.sent? + (s.reads.filterMap arrived? + s.unsent.map String.toList : Multiset (List Char))

end State

/-- What `handle_timer` says when `left` seconds remain. -/
def line (left : ℤ) : String := toString left ++ " seconds remaining"

/-- The lines that were said when `left` seconds remain. -/
def countdown (left : ℤ) : Multiset (List Char) :=
  (([25,20,15,10,5] : List ℤ).filter fun t => left < t).map fun t => (line t).toList

theorem card_countdown_le (left : ℤ) : (countdown left).card ≤ 5 := by
  simp only [countdown,Multiset.coe_card,List.length_map]
  exact List.length_filter_le _ _

/-- The steps that neither hear nor send, in a connection whose `send` nobody calls. -/
def Action.inside : Action → Bool
  | .send _ => false
  | .readCompletes _ r => readFailed r
  | .writeCompletes _ ec => ec.isSome
  | _ => true

/-- At most one write is outstanding, and it is that of the front message. -/
structure Front (s : State) : Prop where
  idle : s.sendingState = .sendIdle → s.writes = []
  writes : s.writes = [] ∨ ∃ st, s.writes = [(s.txQueue.head?,st)] ∧ s.txQueue ≠ []

theorem Region.front {o : Outbox String} (h : Region s o) : Front s where
  idle := h.idle
  writes := by
    cases hs : s.sendingState with
    | sendIdle => exact Or.inl (h.idle hs)
    | sending =>
      rcases h.sending hs with hone | ⟨hnil,-⟩
      · obtain ⟨⟨m,st⟩,hw,rfl⟩ := List.map_eq_singleton_iff.mp hone
        have hne := o.front (h.busy.mpr hs)
        rw [h.queue] at hne
        exact Or.inr ⟨st,hw,hne⟩
      · exact Or.inl hnil

theorem front_of_reachable (h : machine.Reachable s) : Front s := by
  obtain ⟨o,ho⟩ := reachable_sound h
  exact ho.front

section Held

theorem held_congr (htasks : t.tasks.filterMap Task.sent? = s.tasks.filterMap Task.sent?)
    (hreads : t.reads.filterMap arrived? = s.reads.filterMap arrived?) (hunsent : t.unsent = s.unsent) :
    t.held = s.held := by
  rw [State.held,State.held,htasks,hreads,hunsent]

theorem arrived_pending (reads : List (Status (Except Error (List Char)))) :
    (reads ++ [Status.pending]).filterMap arrived? = reads.filterMap arrived? := by
  rw [List.filterMap_append]
  exact List.append_nil _

theorem held_maybeSendNext (h : Front s) : s.maybeSendNext.held = s.held := by
  unfold State.maybeSendNext
  split
  · rfl
  · next hgo =>
    simp only [Bool.or_eq_true,not_or,Bool.not_eq_true,beq_eq_false_iff_ne] at hgo
    obtain ⟨⟨⟨-,-⟩,hsending⟩,-⟩ := hgo
    have hidle : s.sendingState = .sendIdle := by
      cases hs : s.sendingState with
      | sendIdle => rfl
      | sending => exact absurd hs hsending
    rw [initiateTx_eq]
    simp [State.held,State.unsent,State.gone,h.idle hidle]

theorem Front.push (h : Front s) (msg : String) : Front { s with txQueue := s.txQueue ++ [msg] } where
  idle := h.idle
  writes := by
    rcases h.writes with hnil | ⟨st,hw,hne⟩
    · exact Or.inl hnil
    · exact Or.inr ⟨st,by simpa [List.head?_append_of_ne_nil _ hne] using hw,by simp⟩

theorem held_push (h : Front s) (msg : String) :
    State.held { s with txQueue := s.txQueue ++ [msg] } = msg.toList ::ₘ s.held := by
  have hunsent : State.unsent { s with txQueue := s.txQueue ++ [msg] } = s.unsent ++ [msg] := by
    by_cases hgone : s.gone = true
    · have hgone' : State.gone { s with txQueue := s.txQueue ++ [msg] } = true := hgone
      rcases h.writes with hnil | ⟨st,-,hne⟩
      · simp [State.gone,hnil] at hgone
      · simp [State.unsent,hgone,hgone',List.tail_append_of_ne_nil hne]
    · have hgone' : ¬ State.gone { s with txQueue := s.txQueue ++ [msg] } = true := hgone
      simp [State.unsent,hgone,hgone']
  have hsnoc : (((s.unsent ++ [msg]).map String.toList : List (List Char)) : Multiset (List Char)) =
      msg.toList ::ₘ s.unsent.map String.toList := by
    rw [List.map_append,← Multiset.coe_add]
    exact Multiset.add_comm _ _
  simp only [State.held,hunsent,hsnoc,Multiset.add_cons]

theorem held_handleSend (h : Front s) (msg : String) : (s.handleSend msg).held = msg.toList ::ₘ s.held := by
  have hentered : Front (s.emit (.entered (.send msg))) := ⟨h.idle,h.writes⟩
  exact (held_maybeSendNext (hentered.push msg)).trans (held_push hentered msg)

theorem held_dispatchSend (h : Front s) (msg : String) (inl : Bool) :
    (s.dispatchSend msg inl).held = msg.toList ::ₘ s.held := by
  cases inl with
  | true => exact held_handleSend h msg
  | false =>
    have htasks : (s.tasks ++ [Task.handleSend msg]).filterMap Task.sent? =
        s.tasks.filterMap Task.sent? ++ [msg.toList] := by
      simp [Task.sent?]
    change State.held { s with tasks := s.tasks ++ [.handleSend msg] } = _
    simp only [State.held,htasks,← Multiset.coe_add]
    rw [← Multiset.cons_add]
    congr 1
    exact Multiset.add_comm _ _

theorem held_initiateRx : s.initiateRx.held = s.held := by
  rw [initiateRx_eq]
  exact held_congr rfl (arrived_pending s.reads) rfl

theorem held_call {c : Call} (hc : ∀ m, c ≠ .asyncWrite m) : (s.call c).held = s.held := by
  cases c with
  | asyncWrite m => exact absurd rfl (hc m)
  | asyncRead => exact held_congr rfl (arrived_pending s.reads) rfl
  | closeSocket =>
    have hreads : (s.reads.map Status.cancel).filterMap arrived? = s.reads.filterMap arrived? := by
      rw [List.filterMap_map]
      congr 1
      funext st
      cases st <;> rfl
    have hgone : (s.writes.map fun w => (w.1,w.2.cancel)).map Prod.snd = (s.writes.map Prod.snd).map Status.cancel := by
      simp
    have hcancel : ∀ st : Status ErrorCode, st.cancel = .done none ↔ st = .done none := by
      intro st
      cases st <;> simp [Status.cancel]
    have hsame : (s.call .closeSocket).gone = s.gone := by
      simp only [State.gone,State.call,State.emit,State.perform,hgone,List.contains_eq_mem]
      simp [hcancel]
    refine held_congr rfl hreads ?_
    rw [State.unsent,State.unsent,hsame]
    rfl
  | _ => rfl

theorem held_handleStop (reason : CloseReason) : (s.handleStop reason).held = s.held := by
  have hcancelled : State.held ({ s.emit (.entered .stop) with ec := some .operationAborted }.call .cancelTimer) =
      s.held :=
    held_call (by simp)
  rcases handleStop_cases s reason with ⟨-,hstop⟩ | ⟨-,hstop⟩ | ⟨-,hstop⟩
  · rw [hstop]
    exact (held_call (by simp)).trans hcancelled
  · rw [hstop]
    exact (held_call (by simp)).trans hcancelled
  · rw [hstop]
    exact hcancelled

theorem held_initiateTimer : s.initiateTimer.held = s.held := by
  rw [initiateTimer_eq]
  rfl

theorem held_handleRun : s.handleRun.held = s.held := held_initiateTimer

theorem Front.initiateRx (h : Front s) : Front s.initiateRx := by
  rw [initiateRx_eq]
  exact ⟨h.idle,h.writes⟩

theorem held_accepted (h : Front s) (ec : ErrorCode) : (s.accepted ec).held = s.held := by
  rcases accepted_cases s ec with ⟨-,hsame⟩ | ⟨-,-,hchats⟩
  · rw [hsame]
    rfl
  · have hchatting : Front { s.emit (.entered (.accept none)) with state := .chatting } := ⟨h.idle,h.writes⟩
    rw [hchats,held_maybeSendNext hchatting.initiateRx]
    exact held_initiateRx

theorem held_handleRx (h : Front s) (hbuffer : s.rxbuffer = []) (bytes : List Char) (inl : Bool) :
    (s.handleRx (.ok bytes) inl).held = bytes ::ₘ s.held := by
  have hread : Front { s.emit (.entered (.rx (.ok bytes))) with
      rxbuffer := (s.rxbuffer ++ bytes).drop (String.ofList (s.rxbuffer ++ bytes)).length } := ⟨h.idle,h.writes⟩
  have hmessage : (String.ofList (s.rxbuffer ++ bytes)).toList = bytes := by simp [hbuffer]
  refine (held_dispatchSend hread.initiateRx _ inl).trans ?_
  rw [held_initiateRx]
  exact congrArg (· ::ₘ s.held) hmessage

theorem held_handleTx {ec : ErrorCode} {w : Option String × Status ErrorCode} (hw : s.writes = [w])
    (hec : w.2 = .done ec) : ({ s with writes := [] }.handleTx ec).held = s.held := by
  cases ec with
  | some e => simp [State.held,State.unsent,State.gone,State.handleTx,State.emit,hw,hec]
  | none =>
    have hpopped : Front ({ s.emit (.entered (.tx none)) with
        writes := [], txQueue := s.txQueue.tail, sendingState := .sendIdle } : State) := ⟨fun _ => rfl,Or.inl rfl⟩
    refine (held_maybeSendNext hpopped).trans ?_
    simp [State.held,State.unsent,State.gone,State.emit,hw,hec]

end Held

/-! ## The countdown -/

/-- What a countdown depends on. -/
structure Timing (s : State) : Prop where
  buffer : s.rxbuffer = []
  clock : (s.timeRemaining = 30 ∧ s.waits = [] ∧ s.tasks.count .handleRun ≤ 1) ∨
    (s.timeRemaining ∈ ([25,20,15,10,5,0] : List ℤ) ∧ .handleRun ∉ s.tasks)

theorem Timing.frame (h : Timing s) (hbuffer : t.rxbuffer = []) (htime : t.timeRemaining = s.timeRemaining)
    (hwaits : s.waits = [] → t.waits = []) (htasks : t.tasks.count .handleRun ≤ s.tasks.count .handleRun) :
    Timing t := by
  refine ⟨hbuffer,?_⟩
  rcases h.clock with ⟨hearly,hnone,hruns⟩ | ⟨hlate,hran⟩
  · exact Or.inl ⟨htime.trans hearly,hwaits hnone,htasks.trans hruns⟩
  · have hzero : s.tasks.count .handleRun = 0 := List.count_eq_zero.mpr hran
    exact Or.inr ⟨by rwa [htime],List.count_eq_zero.mp (by omega)⟩

section Timings

theorem maybeSendNext_clock :
    (s.maybeSendNext.rxbuffer,s.maybeSendNext.timeRemaining,s.maybeSendNext.waits,s.maybeSendNext.tasks) =
      (s.rxbuffer,s.timeRemaining,s.waits,s.tasks) := by
  unfold State.maybeSendNext
  split
  · rfl
  · rw [initiateTx_eq]

theorem handleStop_clock (reason : CloseReason) :
    ((s.handleStop reason).rxbuffer,(s.handleStop reason).timeRemaining,(s.handleStop reason).waits,
      (s.handleStop reason).tasks) = (s.rxbuffer,s.timeRemaining,s.waits.map Status.cancel,s.tasks) := by
  rcases handleStop_cases s reason with ⟨-,hstop⟩ | ⟨-,hstop⟩ | ⟨-,hstop⟩ <;> rw [hstop] <;> rfl

/-- A step that says nothing on its own account. -/
structure Plainly (s t : State) : Prop where
  buffer : t.rxbuffer = s.rxbuffer
  time : t.timeRemaining = s.timeRemaining
  waits : s.waits = [] → t.waits = []
  runs : t.tasks.count .handleRun ≤ s.tasks.count .handleRun

theorem Plainly.timing (h : Plainly s t) (hs : Timing s) : Timing t :=
  hs.frame (h.buffer.trans hs.buffer) h.time h.waits h.runs

theorem Plainly.of_clock
    (h : (t.rxbuffer,t.timeRemaining,t.waits,t.tasks) = (s.rxbuffer,s.timeRemaining,s.waits,s.tasks)) :
    Plainly s t := by
  simp only [Prod.mk.injEq] at h
  obtain ⟨hbuffer,htime,hwaits,htasks⟩ := h
  exact ⟨hbuffer,htime,fun hnil => hwaits.trans hnil,by rw [htasks]⟩

theorem Plainly.trans {u : State} (h : Plainly s t) (h' : Plainly t u) : Plainly s u :=
  ⟨h'.buffer.trans h.buffer,h'.time.trans h.time,fun hnil => h'.waits (h.waits hnil),h'.runs.trans h.runs⟩

theorem plainly_maybeSendNext (s : State) : Plainly s s.maybeSendNext := Plainly.of_clock maybeSendNext_clock

theorem plainly_handleSend (s : State) (msg : String) : Plainly s (s.handleSend msg) :=
  Plainly.trans (t := { s.emit (.entered (.send msg)) with txQueue := s.txQueue ++ [msg] }) (Plainly.of_clock rfl)
    (plainly_maybeSendNext _)

theorem plainly_dispatchSend (s : State) (msg : String) (inl : Bool) : Plainly s (s.dispatchSend msg inl) := by
  cases inl with
  | true => exact plainly_handleSend s msg
  | false => exact ⟨rfl,rfl,id,by simp [State.dispatchSend]⟩

theorem plainly_handleStop (s : State) (reason : CloseReason) : Plainly s (s.handleStop reason) := by
  have hclock := handleStop_clock (s := s) reason
  simp only [Prod.mk.injEq] at hclock
  obtain ⟨hbuffer,htime,hwaits,htasks⟩ := hclock
  exact ⟨hbuffer,htime,fun hnil => by rw [hwaits,hnil]; rfl,by rw [htasks]⟩

theorem plainly_initiateRx (s : State) : Plainly s s.initiateRx := by
  rw [initiateRx_eq]
  exact Plainly.of_clock rfl

theorem plainly_accepted (s : State) (ec : ErrorCode) : Plainly s (s.accepted ec) := by
  rcases accepted_cases s ec with ⟨-,hsame⟩ | ⟨-,-,hchats⟩
  · rw [hsame]
    exact Plainly.of_clock rfl
  · rw [hchats]
    exact Plainly.trans (t := { s.emit (.entered (.accept none)) with state := .chatting }) (Plainly.of_clock rfl)
      ((plainly_initiateRx _).trans (plainly_maybeSendNext _))

theorem plainly_handleTx (s : State) (ec : ErrorCode) : Plainly s (s.handleTx ec) := by
  cases ec with
  | some e => exact Plainly.of_clock rfl
  | none =>
    exact Plainly.trans
      (t := { s.emit (.entered (.tx none)) with txQueue := s.txQueue.tail, sendingState := .sendIdle })
      (Plainly.of_clock rfl) (plainly_maybeSendNext _)

theorem plainly_handleRx (hbuffer : s.rxbuffer = []) (r : Except Error (List Char)) (inl : Bool) :
    Plainly s (s.handleRx r inl) := by
  cases r with
  | error e => exact Plainly.of_clock rfl
  | ok bytes =>
    let u : State := { s.emit (.entered (.rx (.ok bytes))) with
      rxbuffer := (s.rxbuffer ++ bytes).drop (String.ofList (s.rxbuffer ++ bytes)).length }
    have hu : Plainly s u := ⟨by simp [u,hbuffer],rfl,id,le_refl _⟩
    exact hu.trans ((plainly_initiateRx u).trans (plainly_dispatchSend _ _ inl))

theorem plainly_erase (s : State) (i : ℕ) : Plainly s { s with tasks := s.tasks.eraseIdx i } :=
  ⟨rfl,rfl,id,(List.eraseIdx_sublist s.tasks i).count_le _⟩

end Timings

theorem countdown_step {left : ℤ} (hleft : left ∈ ([25,20,15,10,5,0] : List ℤ)) (hne : left ≠ 0) :
    left - min left 5 ∈ ([25,20,15,10,5,0] : List ℤ) ∧
      countdown (left - min left 5) = (line left).toList ::ₘ countdown left := by
  have hfilter : ∀ k : ℤ, (([25,20,15,10,5] : List ℤ).filter fun t => k < t) =
      (([25,20,15,10,5] : List ℤ).filter fun t => left < t) ++ [left] →
        countdown k = (line left).toList ::ₘ countdown left := by
    intro k hk
    simp only [countdown,hk,List.map_append,← Multiset.coe_add]
    exact Multiset.add_comm _ _
  simp only [List.mem_cons,List.not_mem_nil,or_false] at hleft
  rcases hleft with rfl | rfl | rfl | rfl | rfl | rfl
  all_goals first | exact absurd rfl hne | exact ⟨by decide,hfilter _ (by decide)⟩

/-! ## The account of one step -/

/-- Everything that was said on the connection's own account is in what is held, or was held before. -/
def Balanced (s t : State) : Prop := t.held + countdown s.timeRemaining = s.held + countdown t.timeRemaining

theorem balanced_of_held (hheld : t.held = s.held) (htime : t.timeRemaining = s.timeRemaining) : Balanced s t := by
  rw [Balanced,hheld,htime]

section Steps

/-- A write that is in flight is the only one, and writes the front of the queue. -/
theorem Front.get (h : Front s) {i : ℕ} {m : Option String} {st : Status ErrorCode} (hw : s.writes[i]? = some (m,st)) :
    i = 0 ∧ m = s.txQueue.head? ∧ s.txQueue ≠ [] ∧ s.writes = [(m,st)] := by
  rcases h.writes with hnil | ⟨st',hone,hne⟩
  · simp [hnil] at hw
  · rw [hone] at hw ⊢
    cases i with
    | zero =>
      obtain ⟨rfl,rfl⟩ := Prod.mk.inj (Option.some.inj hw)
      exact ⟨rfl,rfl,hne,rfl⟩
    | succ i => simp at hw

/-- A write that fails has sent nothing. -/
theorem Front.fails (h : Front s) {i : ℕ} {m : Option String} {st : Status ErrorCode} (hw : s.writes[i]? = some (m,st))
    (hst : st = .pending ∨ st = .cancelled) (e : Error) :
    State.unsent { s with writes := s.writes.set i (m,.done (some e)) } = s.unsent := by
  obtain ⟨rfl,-,-,hone⟩ := h.get hw
  have hgone : State.gone { s with writes := s.writes.set 0 (m,.done (some e)) } = s.gone := by
    rcases hst with rfl | rfl <;> simp [State.gone,hone]
  simp only [State.unsent,hgone]

theorem Plainly.account (h : Plainly s t) (hs : Timing s) (hheld : t.held = s.held) : Timing t ∧ Balanced s t :=
  ⟨h.timing hs,balanced_of_held hheld h.time⟩

theorem account_read (hfront : Front s) (h : Timing s) {i : ℕ} {r : Except Error (List Char)}
    (hr : s.reads[i]? = some (.done r)) (inl : Bool) :
    Timing ({ s with reads := s.reads.eraseIdx i }.handleRx r inl) ∧
      Balanced s ({ s with reads := s.reads.eraseIdx i }.handleRx r inl) := by
  have hcoe := Multiset.coe_eq_coe.mpr (filterMap_perm arrived? hr)
  have htaken : Plainly s { s with reads := s.reads.eraseIdx i } := ⟨rfl,rfl,id,le_refl _⟩
  cases r with
  | error e =>
    refine Plainly.account ⟨rfl,rfl,id,le_refl _⟩ h ?_
    simp only [State.held,hcoe]
    rfl
  | ok bytes =>
    have hfronts : Front { s with reads := s.reads.eraseIdx i } := ⟨hfront.idle,hfront.writes⟩
    have hplain := plainly_handleRx (s := { s with reads := s.reads.eraseIdx i }) h.buffer (.ok bytes) inl
    refine (htaken.trans hplain).account h ((held_handleRx hfronts h.buffer bytes inl).trans ?_)
    simp only [State.held,hcoe]
    change bytes ::ₘ (_ + (((s.reads.eraseIdx i).filterMap arrived? : List (List Char)) + _)) =
      _ + ((bytes :: (s.reads.eraseIdx i).filterMap arrived? : List (List Char)) + _)
    rw [← Multiset.cons_coe,Multiset.cons_add,Multiset.add_cons]
    rfl

/-- The timer has run out: the next line is said, or the session ends. -/
theorem account_waited (hfront : Front s) (h : Timing s) {i : ℕ} {ec : ErrorCode} (hi : s.waits[i]? = some (.done ec)) :
    Timing ({ s with waits := s.waits.eraseIdx i }.waited ec) ∧
      Balanced s ({ s with waits := s.waits.eraseIdx i }.waited ec) := by
  have htaken : Plainly s { s with waits := s.waits.eraseIdx i } := ⟨rfl,rfl,fun hnil => by simp [hnil],le_refl _⟩
  cases ec with
  | some e => exact htaken.account h rfl
  | none =>
    have hran : s.timeRemaining ∈ ([25,20,15,10,5,0] : List ℤ) ∧ .handleRun ∉ s.tasks := by
      rcases h.clock with ⟨-,hnil,-⟩ | hlate
      · simp [hnil] at hi
      · exact hlate
    change Timing (State.handleTimer { s with waits := s.waits.eraseIdx i }) ∧
      Balanced s (State.handleTimer { s with waits := s.waits.eraseIdx i })
    let u : State := { s with waits := s.waits.eraseIdx i }.emit (.entered .timer)
    have hu : Plainly s u := htaken.trans (Plainly.of_clock rfl)
    have hfrontu : Front u := ⟨hfront.idle,hfront.writes⟩
    rcases handleTimer_cases { s with waits := s.waits.eraseIdx i } with ⟨-,hsame⟩ | ⟨-,hleft,hgoes⟩ | ⟨-,-,hstop⟩
    · rw [hsame]
      exact hu.account h rfl
    · have hsaid : Plainly s (u.handleSend (line s.timeRemaining)) := hu.trans (plainly_handleSend u _)
      have hheld := held_handleSend hfrontu (line s.timeRemaining)
      have htime : (u.handleSend (line s.timeRemaining)).initiateTimer.timeRemaining =
          s.timeRemaining - min s.timeRemaining 5 := by
        rw [initiateTimer_eq]
        change (u.handleSend (line s.timeRemaining)).timeRemaining -
            min (u.handleSend (line s.timeRemaining)).timeRemaining 5 = _
        rw [hsaid.time]
      obtain ⟨hmem,hsteps⟩ := countdown_step hran.1 hleft
      have hgoes' : State.handleTimer { s with waits := s.waits.eraseIdx i } =
          (u.handleSend (line s.timeRemaining)).initiateTimer := hgoes
      rw [hgoes']
      constructor
      · refine ⟨?_,Or.inr ⟨by rwa [htime],?_⟩⟩
        · rw [initiateTimer_eq]
          exact hsaid.buffer.trans h.buffer
        · rw [initiateTimer_eq]
          have hzero : s.tasks.count .handleRun = 0 := List.count_eq_zero.mpr hran.2
          have hruns := hsaid.runs
          exact List.count_eq_zero.mp (show (u.handleSend (line s.timeRemaining)).tasks.count .handleRun = 0 by omega)
      · rw [Balanced,held_initiateTimer,hheld,htime,hsteps]
        change (line s.timeRemaining).toList ::ₘ s.held + countdown s.timeRemaining = _
        rw [Multiset.cons_add,Multiset.add_cons]
    · rw [hstop]
      exact (hu.trans (plainly_handleStop u ⟨goingAway,"session timed out"⟩)).account h (held_handleStop _)

theorem account_handleRun (h : Timing s) {i : ℕ} (hi : s.tasks[i]? = some .handleRun) :
    Timing ({ s with tasks := s.tasks.eraseIdx i }.handleRun) ∧
      Balanced s ({ s with tasks := s.tasks.eraseIdx i }.handleRun) := by
  have hmem := List.mem_of_getElem? hi
  rcases h.clock with ⟨hearly,-,hruns⟩ | ⟨-,hran⟩
  · have hperm := (List.getElem_cons_eraseIdx_perm (List.getElem?_eq_some_iff.mp hi).1).count_eq Task.handleRun
    rw [(List.getElem?_eq_some_iff.mp hi).2,List.count_cons_self] at hperm
    have htime : ({ s with tasks := s.tasks.eraseIdx i }.handleRun).timeRemaining = 25 := by
      simp [State.handleRun,initiateTimer_eq,State.call,State.perform,State.emit,hearly]
    constructor
    · refine ⟨h.buffer,Or.inr ⟨by simp [htime],?_⟩⟩
      exact List.count_eq_zero.mp (show (s.tasks.eraseIdx i).count .handleRun = 0 by omega)
    · have hnone : countdown 30 = countdown 25 := rfl
      have hheld : ({ s with tasks := s.tasks.eraseIdx i }.handleRun).held = s.held := by
        have herase := filterMap_perm Task.sent? hi
        refine held_handleRun.trans ?_
        simp only [State.held]
        congr 1
        exact (Multiset.coe_eq_coe.mpr herase).symm
      rw [Balanced,hheld,htime,hearly,hnone]
  · exact absurd hmem hran

theorem hears (h : Timing s) {i : ℕ} {bytes : List Char}
    (ha : step s (.readCompletes i (.ok bytes)) = some t) :
    Timing t ∧ t.held = bytes ::ₘ s.held ∧ t.timeRemaining = s.timeRemaining := by
  obtain ⟨st',hst,rfl⟩ := Option.map_eq_some_iff.mp ha
  obtain ⟨st,hi,hcomplete⟩ := Option.bind_eq_some_iff.mp hst
  obtain ⟨rfl,hold⟩ := Status.complete_cases hcomplete
  refine ⟨⟨h.buffer,h.clock⟩,?_,rfl⟩
  have hset := filterMap_set_perm arrived? hi (.done (.ok bytes))
  have herase := filterMap_perm arrived? hi
  have hnone : arrived? st = none := by rcases hold with rfl | ⟨rfl,-⟩ <;> rfl
  rw [hnone] at herase
  have hreads : ((s.reads.set i (.done (.ok bytes))).filterMap arrived?).Perm (bytes :: s.reads.filterMap arrived?) :=
    hset.trans (List.Perm.cons bytes herase.symm)
  have hcoe := Multiset.coe_eq_coe.mpr hreads
  change ((s.tasks.filterMap Task.sent? : List (List Char)) : Multiset (List Char)) +
    (((s.reads.set i (.done (.ok bytes))).filterMap arrived? : List (List Char)) + _) = _
  rw [hcoe,← Multiset.cons_coe,Multiset.cons_add,Multiset.add_cons]
  rfl

theorem sends (hfront : Front s) (h : Timing s) {i : ℕ} (ha : step s (.writeCompletes i none) = some t) :
    ∃ message, (s.writes[i]?).bind Prod.fst = some message ∧ Timing t ∧ s.held = message.toList ::ₘ t.held ∧
      t.timeRemaining = s.timeRemaining := by
  obtain ⟨⟨m,st⟩,hi,hrest⟩ := Option.bind_eq_some_iff.mp ha
  obtain ⟨st',hcomplete,rfl⟩ := Option.map_eq_some_iff.mp hrest
  obtain ⟨rfl,hold⟩ := Status.complete_cases hcomplete
  obtain rfl : st = .pending := by simpa using hold
  obtain ⟨rfl,rfl,hne,hw⟩ := hfront.get hi
  obtain ⟨message,rest,hqueue⟩ := List.exists_cons_of_ne_nil hne
  refine ⟨message,by simp [hw,hqueue],⟨h.buffer,h.clock⟩,?_,rfl⟩
  have hbefore : s.unsent = message :: rest := by simp [State.unsent,State.gone,hw,hqueue]
  have hafter : State.unsent { s with writes := s.writes.set 0 (s.txQueue.head?,.done none) } = rest := by
    simp [State.unsent,State.gone,hw,hqueue]
  simp only [State.held,hbefore,hafter,List.map_cons,← Multiset.cons_coe,Multiset.add_cons]

theorem stays (hfront : Front s) (h : Timing s) {a : Action} (hin : a.inside = true) (ha : step s a = some t) :
    Timing t ∧ Balanced s t := by
  cases a with
  | send msg => cases hin
  | stop =>
    obtain rfl := Option.some.inj ha
    exact Plainly.account ⟨rfl,rfl,id,by simp⟩ h (held_congr (by simp [Task.sent?]) rfl rfl)
  | runTask i =>
    obtain ⟨task,hi,rfl⟩ := Option.map_eq_some_iff.mp ha
    have herase := filterMap_perm Task.sent? hi
    cases task with
    | handleRun => exact account_handleRun h hi
    | handleStop =>
      refine ((plainly_erase s i).trans (plainly_handleStop _ _)).account h ((held_handleStop _).trans ?_)
      simp only [State.held]
      congr 1
      exact (Multiset.coe_eq_coe.mpr herase).symm
    | handleSend msg =>
      have htaken : Front { s with tasks := s.tasks.eraseIdx i } := ⟨hfront.idle,hfront.writes⟩
      refine ((plainly_erase s i).trans (plainly_handleSend _ _)).account h ((held_handleSend htaken msg).trans ?_)
      have hcoe := Multiset.coe_eq_coe.mpr herase
      simp only [State.held,hcoe]
      exact (Multiset.cons_add _ _ _).symm
  | acceptCompletes i ec =>
    obtain ⟨st,-,rfl⟩ := Option.map_eq_some_iff.mp ha
    exact Plainly.account ⟨rfl,rfl,id,le_refl _⟩ h rfl
  | readCompletes i r =>
    obtain ⟨st',hst,rfl⟩ := Option.map_eq_some_iff.mp ha
    obtain ⟨st,hi,hcomplete⟩ := Option.bind_eq_some_iff.mp hst
    obtain ⟨rfl,hold⟩ := Status.complete_cases hcomplete
    refine Plainly.account ⟨rfl,rfl,id,le_refl _⟩ h (held_congr rfl ?_ rfl)
    cases r with
    | ok bytes => cases hin
    | error e => exact filterMap_set_same hi (by rcases hold with rfl | ⟨rfl,-⟩ <;> rfl)
  | writeCompletes i ec =>
    obtain ⟨⟨m,st⟩,hi,hrest⟩ := Option.bind_eq_some_iff.mp ha
    obtain ⟨st',hcomplete,rfl⟩ := Option.map_eq_some_iff.mp hrest
    obtain ⟨rfl,hold⟩ := Status.complete_cases hcomplete
    refine Plainly.account ⟨rfl,rfl,id,le_refl _⟩ h (held_congr rfl rfl ?_)
    cases ec with
    | none => cases hin
    | some e => exact hfront.fails hi (hold.imp id And.left) e
  | waitCompletes i ec =>
    obtain ⟨st',-,rfl⟩ := Option.map_eq_some_iff.mp ha
    exact Plainly.account ⟨rfl,rfl,fun hnil => by simp [hnil],le_refl _⟩ h rfl
  | closeCompletes i ec =>
    obtain ⟨st,-,rfl⟩ := Option.map_eq_some_iff.mp ha
    exact Plainly.account ⟨rfl,rfl,id,le_refl _⟩ h rfl
  | accepted i =>
    obtain ⟨ec,-,rfl⟩ := Option.map_eq_some_iff.mp ha
    have htaken : Plainly s { s with accepts := s.accepts.eraseIdx i } := ⟨rfl,rfl,id,le_refl _⟩
    have hrest : Front { s with accepts := s.accepts.eraseIdx i } := ⟨hfront.idle,hfront.writes⟩
    exact (htaken.trans (plainly_accepted _ _)).account h (held_accepted hrest ec)
  | read i inl =>
    obtain ⟨r,hr,rfl⟩ := Option.map_eq_some_iff.mp ha
    exact account_read hfront h (result_eq_some hr) inl
  | written i =>
    obtain ⟨ec,hec,rfl⟩ := Option.map_eq_some_iff.mp ha
    have hget := result_eq_some hec
    rw [List.getElem?_map] at hget
    obtain ⟨⟨m,st⟩,hw,rfl⟩ := Option.map_eq_some_iff.mp hget
    obtain ⟨rfl,-,-,hone⟩ := hfront.get hw
    have herase : s.writes.eraseIdx 0 = [] := by rw [hone]; rfl
    have htaken : Plainly s { s with writes := s.writes.eraseIdx 0 } := ⟨rfl,rfl,id,le_refl _⟩
    refine (htaken.trans (plainly_handleTx _ _)).account h ?_
    rw [herase]
    exact held_handleTx hone rfl
  | waited i =>
    obtain ⟨ec,hec,rfl⟩ := Option.map_eq_some_iff.mp ha
    exact account_waited hfront h (result_eq_some hec)
  | closed i =>
    obtain ⟨ec,-,rfl⟩ := Option.map_eq_some_iff.mp ha
    exact Plainly.account ⟨rfl,rfl,id,le_refl _⟩ h rfl

end Steps
end EchoConnection
end BeastWebsocketEcho
