import BeastWebsocketEcho.Chronicle
import BeastWebsocketEcho.ExchangeConnection

/-!
# The ping region, once left

A handler that is told of the cancellation leaves the region as it is. One whose wait had expired
before the region was left is told of a success: it sends a ping and waits again.
-/

namespace BeastWebsocketEcho
namespace ExchangeConnection

open ConnectionBase (Called Handled handled_step)

variable {B F : Type*} {text : JsonText B F} {s t : State B F}

def Order (before : List PingEvent) (e : PingEvent) : Prop :=
  (e = .asyncWait ∨ ∃ now, e = .sent now) → .stop ∉ before

structure StaysLeft (p : Ping) : Prop where
  order : Chronicle Order p.log
  exited : .stop ∈ p.log → p.state = .exited

/-- No handler is told that its wait has succeeded when the region has been left. -/
def inTime (s : State B F) : Action B → Bool
  | .onTimer i _ =>
    match s.derived.timer.take i with
    | some (none,_) => s.derived.state != .exited
    | _ => true
  | _ => true

section Logs

variable {log : List PingEvent} {e : PingEvent}

theorem order_free (he : e ≠ .asyncWait) (hsent : ∀ now, e ≠ .sent now) (before : List PingEvent) : Order before e := by
  rintro (h | ⟨now,h⟩)
  · exact absurd h he
  · exact absurd h (hsent now)

theorem order_snoc_iff (he : e = .asyncWait ∨ ∃ now, e = .sent now) :
    Chronicle Order (log ++ [e]) ↔ Chronicle Order log ∧ .stop ∉ log := by
  rw [Chronicle.snoc_iff]
  simp [Order,he]

end Logs

/-- A region that was left any number of times is left, and has done nothing else. -/
inductive Left (p : Ping) : Ping → Prop
  | same : Left p p
  | stop {q : Ping} : Left p q → Left p q.stop

namespace Left

variable {p q : Ping}

theorem of_called (h : Called (overrides text) p q) : Left p q := by
  induction h with
  | same => exact Left.same
  | onError ec _ ih => exact ih.stop
  | onTextFrame frame _ ih => exact ih

theorem exited (h : Left p q) (hp : .stop ∈ p.log ↔ p.state = .exited) : .stop ∈ q.log ↔ q.state = .exited := by
  cases h with
  | same => exact hp
  | stop _ => simp [Ping.stop,Ping.emit]

theorem order_iff (h : Left p q) : Chronicle Order q.log ↔ Chronicle Order p.log := by
  have hgrows : Grows (· = .stop) p.log q.log := by
    induction h with
    | same => exact Grows.refl _
    | stop _ ih => exact ih.snoc rfl
  refine hgrows.chronicle_iff ?_
  rintro before e rfl
  exact order_free (by simp) (by simp) before

end Left

/-- What the connection is like until it is connected: nothing else is outstanding. -/
structure Connecting (s : State B F) : Prop where
  connects : s.connects = 1
  reads : s.reads = 0
  writes : s.writes = []
  closes : s.closes = 0
  closeRegistered : s.closeRegistered = false
  derived : s.derived = Ping.init

/-- A region whose order was never broken is in the state that its log tells. -/
structure Consistent (s : State B F) : Prop where
  connecting : s.connects = 0 ∨ Connecting s
  exited : Chronicle Order s.derived.log → (.stop ∈ s.derived.log ↔ s.derived.state = .exited)

/-- What a step owes: the region stays consistent, and keeps its order exactly if the step is in time. -/
structure Kept (s : State B F) (a : Action B) (t : State B F) : Prop where
  consistent : Consistent t
  order : Chronicle Order t.derived.log ↔ Chronicle Order s.derived.log ∧ inTime s a = true

theorem kept_left {a : Action B} (h : Consistent s) (hconnects : t.connects = 0) (hleft : Left s.derived t.derived)
    (hok : inTime s a = true) : Kept s a t := by
  refine ⟨⟨Or.inl hconnects,fun horder => hleft.exited (h.exited (hleft.order_iff.mp horder))⟩,?_⟩
  simp [hleft.order_iff,hok]

/-- Once it is connected, the connection reaches the region through the virtual functions only. -/
theorem kept_handled {a : Action B} (h : Consistent s) (hconnects : s.connects = 0)
    (ht : Handled (overrides text) s t) (hok : inTime s a = true) : Kept s a t :=
  kept_left h (ht.connects.trans hconnects) (Left.of_called ht.derived) hok

theorem order_start : Chronicle Order Ping.init.start.log :=
  (Chronicle.nil.snoc (order_free (by simp) (by simp) _)).snoc fun _ => by simp [Ping.init]

theorem kept_connected {ec : ErrorCode} (h : Consistent s)
    (hstep : ConnectionBase.step (overrides text) s (.connected ec) = some t) : Kept s (.connected ec) t := by
  obtain ⟨hpos,hok⟩ := Option.ite_none_right_eq_some.mp hstep
  obtain rfl := Option.some.inj hok
  have hconnecting : Connecting s := by
    rcases h.connecting with hzero | hconnecting
    · omega
    · exact hconnecting
  have hone := hconnecting.connects
  cases ec with
  | some e =>
    refine kept_left h ?_ ?_ rfl
    · simp [ConnectionBase.State.handleConnect,ConnectionBase.State.emit,hone]
    · simpa [ConnectionBase.State.handleConnect,ConnectionBase.State.emit,overrides] using Left.same.stop
  | none =>
    have hderived : ((({ s with connects := s.connects - 1 } : State B F).emit (.connectDone none)).handleConnect
        (overrides text) none).derived = Ping.init.start := by
      simp [ConnectionBase.State.handleConnect,ConnectionBase.State.enterReadState,ConnectionBase.State.emit,
        overrides,hconnecting.derived]
    refine ⟨⟨Or.inl ?_,fun _ => ?_⟩,?_⟩
    · simp [ConnectionBase.State.handleConnect,ConnectionBase.State.enterReadState,ConnectionBase.State.emit,hone]
    · rw [hderived]
      decide
    · rw [hderived,hconnecting.derived]
      exact iff_of_true order_start ⟨Chronicle.nil,rfl⟩

theorem kept_failed {i : ℕ} {now : ℤ} {e : Error} {timer : Timer} (hconnects : s.connects = 0)
    (htake : s.derived.timer.take i = some (some e,timer)) :
    Kept s (.onTimer i now) (pingOnTimer text now { s with derived := { s.derived with timer := timer } }
      (some e)) := by
  have hlog : (pingOnTimer text now { s with derived := { s.derived with timer := timer } } (some e)).derived.log =
      s.derived.log ++ [PingEvent.stop] := by
    simp [pingOnTimer,overrides,Ping.stop,Ping.emit]
  have hfree : Order s.derived.log .stop := order_free (by simp) (by simp) _
  refine ⟨⟨Or.inl (by simpa [pingOnTimer] using hconnects),fun _ => ?_⟩,?_⟩
  · simp [pingOnTimer,overrides,Ping.stop,Ping.emit]
  · rw [hlog,Chronicle.snoc_iff]
    simp [hfree,inTime,htake]

theorem kept_expired {i : ℕ} {now : ℤ} {timer : Timer} (h : Consistent s) (hconnects : s.connects = 0)
    (htake : s.derived.timer.take i = some (none,timer)) :
    Kept s (.onTimer i now) (pingOnTimer text now { s with derived := { s.derived with timer := timer } } none) := by
  have hlog : (pingOnTimer text now { s with derived := { s.derived with timer := timer } } none).derived.log =
      (s.derived.log ++ [PingEvent.sent now]) ++ [PingEvent.asyncWait] := by
    simp [pingOnTimer,Ping.enterWaitingState,Ping.emit]
  have horder : Chronicle Order ((s.derived.log ++ [PingEvent.sent now]) ++ [PingEvent.asyncWait]) ↔
      Chronicle Order s.derived.log ∧ .stop ∉ s.derived.log := by
    rw [order_snoc_iff (Or.inl rfl),order_snoc_iff (Or.inr ⟨now,rfl⟩)]
    simp
  refine ⟨⟨Or.inl (by simpa [pingOnTimer] using hconnects),fun ht => ?_⟩,?_⟩
  · rw [hlog,horder] at ht
    simpa [pingOnTimer,Ping.enterWaitingState,Ping.emit] using ht.2
  · rw [hlog,horder]
    refine and_congr_right fun hs => ?_
    simp [inTime,htake,h.exited hs]

theorem kept_step {a : Action B} (h : Consistent s) (hstep : step text s a = some t) : Kept s a t := by
  have hconnected : (0 < s.reads ∨ s.writes ≠ [] ∨ 0 < s.closes ∨ s.closeRegistered = true ∨
      s.derived.timer.waits ≠ []) → s.connects = 0 := by
    intro hbusy
    rcases h.connecting with hzero | hc
    · exact hzero
    · simp [hc.reads,hc.writes,hc.closes,hc.closeRegistered,hc.derived,Ping.init,Timer.idle] at hbusy
  cases a with
  | connected ec => exact kept_connected h hstep
  | read ec bytes =>
    have hbase : ConnectionBase.step (overrides text) s (.read ec bytes) = some t := hstep
    have hreads := (Option.ite_none_right_eq_some.mp hstep).1
    exact kept_handled h (hconnected (by simp [hreads])) (handled_step hbase (by simp)) rfl
  | wrote ec =>
    have hbase : ConnectionBase.step (overrides text) s (.wrote ec) = some t := hstep
    have hwrites : s.writes ≠ [] := by
      intro hnil
      simp [step,ConnectionBase.step,hnil] at hstep
    exact kept_handled h (hconnected (by simp [hwrites])) (handled_step hbase (by simp)) rfl
  | closed ec =>
    have hbase : ConnectionBase.step (overrides text) s (.closed ec) = some t := hstep
    have hcloses := (Option.ite_none_right_eq_some.mp hstep).1
    exact kept_handled h (hconnected (by simp [hcloses])) (handled_step hbase (by simp)) rfl
  | stop =>
    by_cases hregistered : s.closeRegistered = true
    · have hbase : ConnectionBase.step (overrides text) s .stop = some t := hstep
      exact kept_handled h (hconnected (by simp [hregistered])) (handled_step hbase (by simp)) rfl
    · obtain rfl : s = t := by simpa [step,ConnectionBase.step,ConnectionBase.State.stop,hregistered] using hstep
      exact ⟨h,by simp [inTime]⟩
  | timerEnds i =>
    obtain ⟨timer,hcomplete,rfl⟩ := Option.map_eq_some_iff.mp hstep
    refine ⟨⟨?_,h.exited⟩,by simp [inTime]⟩
    refine Or.inl (hconnected ?_)
    obtain ⟨n,st,ec,hw,-⟩ := Timer.complete_cases hcomplete
    simp [List.ne_nil_of_mem (List.mem_of_getElem? hw)]
  | onTimer i now =>
    obtain ⟨⟨ec,timer⟩,htake,rfl⟩ := Option.map_eq_some_iff.mp hstep
    obtain ⟨n,hw,-⟩ := Timer.take_cases htake
    have hzero := hconnected (by simp [List.ne_nil_of_mem (List.mem_of_getElem? hw)])
    cases ec with
    | some e => exact kept_failed hzero htake
    | none => exact kept_expired h hzero htake

theorem consistent_init : Consistent (init : State B F) :=
  ⟨Or.inr ⟨rfl,rfl,rfl,rfl,rfl,rfl⟩,fun _ => by simp [init,ConnectionBase.State.init,Ping.init]⟩

/-- The ping region stays left in exactly those runs in which no handler is told, after the region was left, that its
wait has succeeded. -/
theorem ping_stays_left_iff {as : List (Action B)} {t : State B F} (h : (machine text).Exec init as t) :
    StaysLeft t.derived ↔ ((machine text).restrict inTime).Exec init as t := by
  have hconsistent : Consistent t := h.invariant (I := Consistent)
      (fun s a t hs ha => (kept_step hs ha).consistent) consistent_init
  have horder : Chronicle Order t.derived.log ↔
      Chronicle Order (init : State B F).derived.log ∧ ((machine text).restrict inTime).Exec init as t :=
    h.restrict_iff (I := Consistent) (P := fun s => Chronicle Order s.derived.log)
      (fun s a t hs ha => (kept_step hs ha).consistent) (fun s a t hs ha => (kept_step hs ha).order) consistent_init
  have hinit : Chronicle Order (init : State B F).derived.log := Chronicle.nil
  rw [and_iff_right hinit] at horder
  rw [← horder]
  exact ⟨fun hstays => hstays.order,fun hlog => ⟨hlog,(hconsistent.exited hlog).mp⟩⟩

/-- The steps of the client are steps of its base class, and of a derived class that acts on its own account. -/
theorem base_exec {a : Action B} (h : step text s a = some t) :
    ∃ bs, (ConnectionBase.machine (overrides text)).Exec s bs t := by
  cases a with
  | connected ec => exact ⟨[.connected ec],Machine.Exec.single h⟩
  | read ec bytes => exact ⟨[.read ec bytes],Machine.Exec.single h⟩
  | wrote ec => exact ⟨[.wrote ec],Machine.Exec.single h⟩
  | closed ec => exact ⟨[.closed ec],Machine.Exec.single h⟩
  | stop => exact ⟨[.stop],Machine.Exec.single h⟩
  | timerEnds i =>
    obtain ⟨timer,-,rfl⟩ := Option.map_eq_some_iff.mp h
    exact ⟨[.derive { s.derived with timer := timer }],Machine.Exec.single rfl⟩
  | onTimer i now =>
    obtain ⟨⟨ec,timer⟩,-,rfl⟩ := Option.map_eq_some_iff.mp h
    cases ec with
    | some e =>
      refine ⟨[.derive { s.derived with state := .exited, timer := timer },.fail e],?_⟩
      exact Machine.Exec.succ rfl (Machine.Exec.single rfl)
    | none =>
      refine ⟨[.derive (({ s.derived with timer := timer } : Ping).emit (.sent now)),
        .notifySend (text.dump (pingFrame now)),
        .derive (({ s.derived with timer := timer } : Ping).emit (.sent now)).enterWaitingState],?_⟩
      refine Machine.Exec.succ rfl (Machine.Exec.succ rfl (Machine.Exec.single ?_))
      simp [ConnectionBase.machine,ConnectionBase.step,pingOnTimer]

theorem base_reachable (h : (machine text).Reachable s) : (ConnectionBase.machine (overrides text)).Reachable s := by
  refine h.project (f := id) ?_ fun s a t ha => base_exec ha
  rintro s rfl
  exact Machine.Reachable.init ⟨Ping.init,rfl⟩

def pingText : JsonText ℕ String where
  parse := fun _ => none
  dump := fun j =>
    match (j.field "cmd").bind Json.asString with
    | some cmd => "\x7b\"args\":[0],\"cmd\":\"" ++ cmd ++ "\",\"id\":\"random_id.me.hk\"\x7d"
    | none => ""

/-- The transport comes up, a ping is sent, a read fails, and the handler of the second wait is told of it. -/
def readFails : List (Action ℕ) :=
  [.connected none,.timerEnds 0,.onTimer 0 0,.read (some .closed) [],.timerEnds 0,.onTimer 0 0]

theorem ping_stays_left_readFails : ∃ t, (machine pingText).Exec init readFails t ∧
    ((machine pingText).restrict inTime).Exec init readFails t ∧ StaysLeft t.derived := by
  have hrun : ((machine pingText).restrict inTime).replay init readFails = some _ := rfl
  have hplain : (machine pingText).replay init readFails = some _ := rfl
  have hexec := Machine.Exec.of_replay hrun
  have hbase := Machine.Exec.of_replay hplain
  exact ⟨_,hbase,hexec,(ping_stays_left_iff hbase).mpr hexec⟩

/-- The wait has expired when the handler of a read that failed runs. -/
def readFailsFirst : List (Action ℕ) := [.connected none,.timerEnds 0,.read (some .closed) [],.onTimer 0 0]

theorem ping_after_stop : ¬ ∀ as t, (machine pingText).Exec init as t → StaysLeft t.derived := by
  intro h
  have hrun : (machine pingText).replay init readFailsFirst = some _ := rfl
  have hstays := h _ _ (Machine.Exec.of_replay hrun)
  exact absurd (hstays.exited (by decide)) (by decide)

end ExchangeConnection
end BeastWebsocketEcho
