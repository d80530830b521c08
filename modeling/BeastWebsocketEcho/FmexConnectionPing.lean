import BeastWebsocketEcho.FmexConnection
import BeastWebsocketEcho.WssTransportRuns

/-!
# Pings and pongs

As long as no pong arrives while an expired wait is queued, one wait at most is alive, and none
while a pong is awaited. A pong that crosses an expiry starts a second wait beside the first.
-/

namespace BeastWebsocketEcho
namespace WssTransport

variable {B X : Type*} {s t : State B X}

def Past (s : State B X) : Prop := s.state ≠ .notStarted ∧ s.state ≠ .connecting

theorem Past.calls (h : Past s) (cs : List (Call B)) : Past (s.calls cs) := by
  rw [Past,state_calls h.1]
  exact h

theorem Past.startReading (h : Past s) : Past s.startReading := by
  unfold State.startReading
  split
  · exact h
  · exact h

theorem Past.startSending (h : Past s) : Past s.startSending := by
  rw [Past,state_startSending]
  exact h

theorem past_eventTransportUp (s : State B X) (d : Derived B X) : Past (s.eventTransportUp d) := by
  have hup : Past ({ s with state := .connected }.emit .transportUp) := ⟨by simp [State.emit],by simp [State.emit]⟩
  exact (hup.calls d.onTransportUp).startSending.startReading

theorem past_eventTransportError (h : s.state ≠ .notStarted) (d : Derived B X) (ep : ExceptionPtr X) :
    Past (s.eventTransportError d ep) := by
  have hfinished : Past ({ s with state := .finished }.emit (.transportError ep)) :=
    ⟨by simp [State.emit],by simp [State.emit]⟩
  unfold State.eventTransportError
  cases hstate : s.state with
  | notStarted => exact absurd hstate h
  | finished => exact ⟨by simp [hstate],by simp [hstate]⟩
  | connecting => exact hfinished.calls _
  | connected => exact hfinished.calls _
  | closing => exact hfinished.calls _

theorem Past.wrote (h : Past s) (ec : ErrorCode) (d : Derived B X) : Past (s.handleSend d ec) := by
  cases ec with
  | some e => exact past_eventTransportError (s := { s with sendState := .notSending }.popFront) h.1 d _
  | none => exact Past.startSending (s := { s with sendState := .notSending }.popFront) h

theorem Past.read (h : Past s) (d : Derived B X) (text : Bool) (ec : ErrorCode) (n : ℕ) :
    Past (s.handleRead d text ec n) := by
  cases ec with
  | some e => exact past_eventTransportError h.1 d _
  | none =>
    have hdelivered : Past (s.deliver d text n) := by
      rw [Past,state_deliver h.1]
      exact h
    simp only [State.handleRead]
    split
    · exact past_eventTransportError hdelivered.1 d _
    · exact Past.startReading (s := { s.deliver d text n with rxBuffer := (s.deliver d text n).rxBuffer.drop n })
        hdelivered

theorem Past.start (h : Past s) (onStart : List (Call B)) : Past (s.start onStart) := by
  unfold State.start
  split
  · next hstate => exact absurd hstate h.1
  all_goals exact h

end WssTransport

namespace FmexConnection

open WssTransport (Past)

variable {B : Type*} {text : JsonText B (List B)} {s t : State B} {p : Ping}

/-- A ping that is sent is answered before the next one is. -/
def Alternates (before : List PingEvent) (e : PingEvent) : Prop :=
  e = .timeout → ∀ old new, before = old ++ .timeout :: new → .pong ∈ new

/-- Pings and pongs alternate, and nothing can time out while a pong is awaited. -/
structure Alternating (p : Ping) : Prop where
  order : Chronicle Alternates p.log
  waits : p.state = .waitingPong → p.timer.live = []

/-- No pong arrives while the completion of an expired wait is queued. -/
def uncrossed (text : JsonText B (List B)) (s : State B) : Action B → Bool
  | .read none bytes true =>
    match frameType text (delivered s bytes) with
    | .ok (_,.string type) => !(type == "ping") || s.ping.timer.expired.isEmpty
    | _ => true
  | _ => true

def Answered (log : List PingEvent) : Prop := ∀ old new, log = old ++ .timeout :: new → .pong ∈ new

structure Regular (p : Ping) : Prop where
  order : Chronicle Alternates p.log
  single : p.timer.live.length ≤ 1
  waits : p.state = .waitingPong → p.timer.live = []
  answered : p.timer.live ≠ [] → Answered p.log

section Pings

theorem answered_snoc {log : List PingEvent} (h : Answered log) {e : PingEvent} (he : e ≠ .timeout) :
    Answered (log ++ [e]) := by
  intro old new hsplit
  rcases Chronicle.split_snoc hsplit with ⟨-,heq,-⟩ | ⟨init,rfl,hinit⟩
  · exact absurd heq.symm he
  · exact List.mem_append_left _ (h old init hinit)

theorem answered_pong (log : List PingEvent) : Answered (log ++ [PingEvent.pong]) := by
  intro old new hsplit
  rcases Chronicle.split_snoc hsplit with ⟨-,heq,-⟩ | ⟨init,rfl,-⟩
  · cases heq
  · simp

/-- A region that starts to wait, when no expired wait is queued, waits once. -/
theorem Regular.enterWait (h : Chronicle Alternates p.log) (hexpired : p.timer.expired = [])
    (hanswered : Answered p.log) :
    Regular p.enterWait where
  order := h
  single := by simp [Ping.enterWait,hexpired]
  waits := by simp [Ping.enterWait]
  answered := fun _ => hanswered

theorem Regular.eventPong (h : Regular p) (hexpired : p.timer.expired = []) : Regular p.eventPong :=
  Regular.enterWait (p := p.emit .pong) (h.order.snoc (by simp [Alternates])) hexpired (answered_pong p.log)

theorem regular_enterState : Regular Ping.init.enterState := by
  refine Regular.enterWait (p := Ping.init.emit (.asserted true)) ?_ rfl ?_
  · exact Chronicle.nil.snoc (by simp [Alternates])
  · exact answered_snoc (by simp [Answered,Ping.init]) (by simp)

/-- The handler that sends a ping takes the one wait that is alive. -/
theorem Regular.eventTimeout (h : Regular p) {i : ℕ} {timer : Timer} (htake : p.timer.take i = some (none,timer)) :
    Regular ({ p with timer := timer } : Ping).eventTimeout := by
  obtain ⟨n,-,hperm,-⟩ := Timer.live_take_none htake
  have hlength := hperm.length_eq
  have hsingle := h.single
  have hnil : timer.live = [] := by
    rw [← List.length_eq_zero_iff]
    simp only [List.length_cons] at hlength
    omega
  have hlive : p.timer.live ≠ [] := by
    intro hempty
    simp [hempty] at hlength
  refine ⟨h.order.snoc fun _ => h.answered hlive,?_,fun _ => hnil,fun hne => absurd hnil hne⟩
  simp [Ping.eventTimeout,Ping.emit,hnil]

theorem Regular.timer (h : Regular p) {timer : Timer} (hperm : p.timer.live.Perm timer.live) :
    Regular { p with timer := timer } := by
  have hnil : timer.live = [] ↔ p.timer.live = [] :=
    ⟨fun hempty => List.perm_nil.mp (hempty ▸ hperm),fun hempty => List.nil_perm.mp (hempty ▸ hperm)⟩
  refine ⟨h.order,hperm.length_eq ▸ h.single,fun hstate => hnil.mpr (h.waits hstate),fun hne => h.answered ?_⟩
  exact fun hempty => hne (hnil.mpr hempty)

end Pings

/-- A frame leaves the ping state alone, or is a pong. -/
theorem onTextFrame_cases (text : JsonText B (List B)) (frame : List B) (p : Ping) : (onTextFrame text frame p).1 = p ∨
    (∃ jframe, frameType text frame = .ok (jframe,.string "ping")) ∧ (onTextFrame text frame p).1 = p.eventPong := by
  unfold onTextFrame
  cases hframe : frameType text frame with
  | error e => exact Or.inl rfl
  | ok parsed =>
    obtain ⟨jframe,type⟩ := parsed
    cases type with
    | string type =>
      by_cases hping : type = "ping"
      · subst hping
        exact Or.inr ⟨⟨jframe,rfl⟩,rfl⟩
      · refine Or.inl ?_
        simp only [hping,if_false]
        split
        · rfl
        · split
          · split <;> rfl
          · rfl
    | _ => exact Or.inl rfl

/-- What every run without a crossing keeps: until the transport has come up, the ping state was not entered. -/
structure Kept (s : State B) : Prop where
  regular : Regular s.ping
  early : ¬ Past s.transport → s.ping = Ping.init

theorem transport_exec {a : Action B} (h : step text s a = some t) :
    ∃ bs, WssTransport.machine.Exec s.transport bs t.transport := by
  cases a with
  | start =>
    obtain rfl : ⟨s.transport.start [.initiateConnect],s.ping⟩ = t := Option.some.inj h
    exact ⟨[.start [.initiateConnect]],Machine.Exec.single rfl⟩
  | connected ec =>
    obtain ⟨transport,htransport,rfl⟩ := Option.map_eq_some_iff.mp h
    exact ⟨[.connected ec (overrides text [] s.ping)],Machine.Exec.single htransport⟩
  | wrote ec =>
    obtain ⟨transport,htransport,rfl⟩ := Option.map_eq_some_iff.mp h
    exact ⟨[.wrote ec (overrides text [] s.ping)],Machine.Exec.single htransport⟩
  | read ec bytes isText =>
    obtain ⟨transport,htransport,rfl⟩ := Option.map_eq_some_iff.mp h
    exact ⟨[.read ec bytes isText (overrides text (delivered s bytes) s.ping)],Machine.Exec.single htransport⟩
  | timerEnds i =>
    obtain ⟨timer,-,rfl⟩ := Option.map_eq_some_iff.mp h
    exact ⟨[],Machine.Exec.refl _⟩
  | onTimer i timestamp =>
    obtain ⟨⟨ec,timer⟩,-,rfl⟩ := Option.map_eq_some_iff.mp h
    cases ec with
    | some e => exact ⟨[],Machine.Exec.refl _⟩
    | none => exact ⟨[.call (.sendTextFrame (text.dump (pingFrame timestamp)))],Machine.Exec.single rfl⟩

theorem transport_reachable (h : (machine text).Reachable s) : WssTransport.machine.Reachable s.transport := by
  refine h.project (f := State.transport) ?_ ?_
  · rintro s rfl
    exact Machine.Reachable.init rfl
  · intro s a t ha
    have hstep : step text s a = some t := ha
    exact transport_exec hstep

/-- A wait that is outstanding or queued was started when the transport had come up. -/
theorem Kept.past (h : Kept s) (hwaits : s.ping.timer.waits ≠ []) : Past s.transport := by
  by_contra hearly
  simp [h.early hearly,Ping.init,Timer.idle] at hwaits

theorem regular_onTextFrame {frame : List B} (h : Regular p)
    (hexpired : (∃ jframe, frameType text frame = .ok (jframe,.string "ping")) → p.timer.expired = []) :
    Regular (onTextFrame text frame p).1 := by
  rcases onTextFrame_cases text frame p with hsame | ⟨hpong,heq⟩
  · rw [hsame]
    exact h
  · rw [heq]
    exact h.eventPong (hexpired hpong)

theorem kept_connected {ec : ErrorCode} (hlife : WssTransport.Sound s.transport) (h : Kept s)
    (hstep : step text s (.connected ec) = some t) : Kept t := by
  obtain ⟨transport,htransport,rfl⟩ := Option.map_eq_some_iff.mp hstep
  obtain ⟨hconnects,hok⟩ := Option.ite_none_right_eq_some.mp htransport
  obtain rfl := Option.some.inj hok
  have hconnecting := hlife.life.connecting hconnects
  have hinit := h.early fun hpast => hpast.2 hconnecting
  cases ec with
  | some e =>
    refine ⟨h.regular,fun hearly => absurd ?_ hearly⟩
    exact WssTransport.past_eventTransportError (by simp [WssTransport.State.emit,hconnecting]) _ _
  | none =>
    refine ⟨?_,fun hearly => absurd (WssTransport.past_eventTransportUp _ _) hearly⟩
    simp only [hinit]
    exact regular_enterState

/-- A read that delivers a frame: it is a pong, or leaves the ping state alone. -/
theorem kept_read {ec : ErrorCode} {bytes : List B} {isText : Bool} (hlife : WssTransport.Sound s.transport)
    (h : Kept s)
    (hok : uncrossed text s (.read ec bytes isText) = true) (hstep : step text s (.read ec bytes isText) = some t) :
    Kept t := by
  obtain ⟨transport,htransport,rfl⟩ := Option.map_eq_some_iff.mp hstep
  obtain ⟨hreads,hread⟩ := Option.ite_none_right_eq_some.mp htransport
  have hpast : Past s.transport := by
    constructor
    · intro hstate
      simp [hlife.life.early (Or.inl hstate)] at hreads
    · intro hstate
      simp [hlife.life.early (Or.inr hstate)] at hreads
  have hafter : Past transport := by
    obtain rfl := Option.some.inj hread
    exact Past.read
      (s := ({ s.transport with reads := s.transport.reads - 1, rxBuffer := s.transport.rxBuffer ++ bytes } :
        WssTransport.State B Exception).emit (.readDone ec)) hpast _ isText ec bytes.length
  refine ⟨?_,fun hearly => absurd hafter hearly⟩
  split
  · next htold =>
    refine regular_onTextFrame h.regular fun hpong => ?_
    obtain ⟨jframe,hframe⟩ := hpong
    obtain ⟨rfl,rfl⟩ : ec = none ∧ isText = true := by simpa using htold
    simpa [uncrossed,hframe] using hok
  · exact h.regular

theorem kept_onTimer {i timestamp : ℕ} (h : Kept s) (hstep : step text s (.onTimer i timestamp) = some t) : Kept t := by
  obtain ⟨⟨ec,timer⟩,htake,rfl⟩ := Option.map_eq_some_iff.mp hstep
  obtain ⟨n,hw,-⟩ := Timer.take_cases htake
  have hpast := h.past (List.ne_nil_of_mem (List.mem_of_getElem? hw))
  cases ec with
  | some e => exact ⟨h.regular.timer (Timer.live_take_some htake).1,fun hearly => absurd hpast hearly⟩
  | none =>
    refine ⟨h.regular.eventTimeout htake,fun hearly => absurd ?_ hearly⟩
    have hstate := WssTransport.state_call hpast.1 (.sendTextFrame (text.dump (pingFrame timestamp)))
    simpa [Past,handleTimer,WssTransport.State.call] using hstate ▸ hpast

theorem kept_step {a : Action B} (hlife : WssTransport.Sound s.transport) (h : Kept s) (hok : uncrossed text s a = true)
    (hstep : step text s a = some t) : Kept t := by
  cases a with
  | start =>
    obtain rfl : ⟨s.transport.start [.initiateConnect],s.ping⟩ = t := Option.some.inj hstep
    exact ⟨h.regular,fun hearly => h.early fun hpast => hearly (hpast.start _)⟩
  | connected ec => exact kept_connected hlife h hstep
  | wrote ec =>
    obtain ⟨transport,htransport,rfl⟩ := Option.map_eq_some_iff.mp hstep
    refine ⟨h.regular,fun hearly => h.early fun hpast => hearly ?_⟩
    cases hw : s.transport.writes with
    | nil => simp [WssTransport.step,hw] at htransport
    | cons frame writes =>
      simp only [WssTransport.step,hw,Option.some.injEq] at htransport
      subst htransport
      exact Past.wrote
        (s := ({ s.transport with writes := writes } : WssTransport.State B Exception).emit (.writeDone ec))
        hpast ec _
  | read ec bytes isText => exact kept_read hlife h hok hstep
  | timerEnds i =>
    obtain ⟨timer,hcomplete,rfl⟩ := Option.map_eq_some_iff.mp hstep
    obtain ⟨n,st,ec,hw,-⟩ := Timer.complete_cases hcomplete
    have hpast := h.past (List.ne_nil_of_mem (List.mem_of_getElem? hw))
    exact ⟨h.regular.timer (by rw [Timer.live_complete hcomplete]),fun hearly => absurd hpast hearly⟩
  | onTimer i timestamp => exact kept_onTimer h hstep

theorem kept_init : Kept (init : State B) := by
  refine ⟨⟨Chronicle.nil,?_,?_,?_⟩,fun _ => rfl⟩
  · simp [init,Ping.init,Timer.idle,Timer.live]
  · simp [init,Ping.init]
  · simp [init,Ping.init,Timer.idle,Timer.live]

/-- Pings and pongs alternate in every run in which no pong arrives while the completion of an expired wait
is queued. -/
theorem pings_alternate (h : ((machine text).restrict (uncrossed text)).Reachable s) : Alternating s.ping := by
  have hkept : Kept s := by
    refine h.invariant_reachable (I := Kept) ?_ ?_
    · rintro s rfl
      exact kept_init
    · intro s a t hs hkept ha
      obtain ⟨hok,hstep⟩ := Machine.restrict_step_iff.mp ha
      exact kept_step (WssTransport.sound_of_reachable (transport_reachable hs.of_restrict)) hkept hok hstep
  exact ⟨hkept.regular.order,hkept.regular.waits⟩

/-- A pong that finds an expired wait queued leaves two waits alive, and the handler of the first does not see the
other. -/
theorem not_alternating_of_expired (hping : t.ping = p.eventPong) (hexpired : p.timer.expired ≠ []) :
    ∃ i u, step text t (.onTimer i 0) = some u ∧ ¬ Alternating u.ping := by
  have hqueued : t.ping.timer.expired ≠ [] := by simpa [hping,Ping.eventPong,Ping.enterWait,Ping.emit] using hexpired
  obtain ⟨i,timer,htake⟩ := Timer.exists_take hqueued
  refine ⟨i,handleTimer text 0 { t with ping := { t.ping with timer := timer } } none,by simp [step,htake],?_⟩
  intro halternating
  have hnone : timer.live = [] := halternating.waits rfl
  obtain ⟨n,-,hperm,-⟩ := Timer.live_take_none htake
  have hlive : t.ping.timer.live = p.timer.expired ++ [p.timer.started] := by
    simp [hping,Ping.eventPong,Ping.enterWait,Ping.emit]
  have hlength := hperm.length_eq
  simp only [hlive,hnone,List.length_append,List.length_cons,List.length_nil] at hlength
  exact hexpired (List.length_eq_zero_iff.mp (by omega))

/-- A run that a pong crosses can go on to break the alternation. -/
theorem crossed_pong {a : Action B} (hok : uncrossed text s a = false) (hstep : step text s a = some t) :
    ∃ i u, step text t (.onTimer i 0) = some u ∧ ¬ Alternating u.ping := by
  unfold uncrossed at hok
  split at hok
  · next bytes =>
    obtain ⟨transport,-,rfl⟩ := Option.map_eq_some_iff.mp hstep
    split at hok
    · next jframe type hframe =>
      obtain ⟨rfl,hexpired⟩ : type = "ping" ∧ s.ping.timer.expired ≠ [] := by simpa using hok
      have hpong : (onTextFrame text (delivered s bytes) s.ping).1 = s.ping.eventPong := by simp [onTextFrame,hframe]
      exact not_alternating_of_expired (p := s.ping) hpong hexpired
    · cases hok
  · cases hok

def pongBytes : List Char := "\x7b\"type\":\"ping\"\x7d".toList

def pongText : JsonText Char (List Char) where
  parse := fun frame => if frame = pongBytes then some (.object [("type",.string "ping")]) else none
  dump := fun _ => "\x7b\"cmd\":\"ping\",\"id\":\"my_ping_ident\",\"args\":[0]\x7d".toList

def pingPong : List (Action Char) :=
  [.start,.connected none,.read none pongBytes true,.timerEnds 0,.onTimer 0 0,.timerEnds 0,.onTimer 0 0,
    .read none pongBytes true,.timerEnds 0,.onTimer 0 0]

theorem pings_alternate_pingPong : ∃ s,
    ((machine pongText).restrict (uncrossed pongText)).replay init pingPong = some s ∧
    s.ping.log = [.asserted true,.pong,.timeout,.pong,.timeout] ∧ Alternating s.ping := by
  have hrun : ((machine pongText).restrict (uncrossed pongText)).replay init pingPong = some _ := rfl
  exact ⟨_,hrun,rfl,pings_alternate (Machine.Reachable.of_replay rfl hrun)⟩

/-- An unsolicited pong arrives when the timer has expired, and the two waits send a ping each. -/
def pongCrosses : List (Action Char) :=
  [.start,.connected none,.timerEnds 0,.read none pongBytes true,.onTimer 0 0,.timerEnds 0,.onTimer 0 0]

theorem two_pings_in_a_row : ¬ ∀ s, (machine pongText).Reachable s → Alternating s.ping := by
  intro h
  have hrun : (machine pongText).replay init pongCrosses = some _ := rfl
  have horder := (h _ (Machine.Reachable.of_replay rfl hrun)).order
  have hpong := horder [.asserted true,.pong,.timeout] .timeout [] rfl rfl [.asserted true,.pong] [] rfl
  simp at hpong

end FmexConnection
end BeastWebsocketEcho
