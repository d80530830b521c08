import BeastWebsocketEcho.Chronicle
import BeastWebsocketEcho.ConnectionBase
import BeastWebsocketEcho.Outbox

/-!
# The send region of the exchange client

The queue is an outbox whose front is being written while it is busy. A write that fails takes
its frame from the queue before `on_error` is called, so that what is submitted then, or later,
finds the region idle and starts with the frame that is in front.
-/

namespace BeastWebsocketEcho
namespace ConnectionBase

variable {B F D : Type*} {v : Virtual B F D} {s t : State B F D}

open State

section Logs

variable (log : List (Event F)) (e : Event F)

theorem submitted_snoc : submitted (log ++ [e]) = submitted log ++ e.submitted?.toList := by
  rw [submitted,List.filterMap_append,filterMap_cons_toList]
  simp [submitted]

theorem written_snoc : written (log ++ [e]) = written log ++ e.asyncWrite?.toList := by
  rw [written,List.filterMap_append,filterMap_cons_toList]
  simp [written]

variable {log e}

theorem Stalled.snoc (h : Stalled log) (hdone : e.writeDone? = none) (hsubmit : e.submitted? = none) :
    Stalled (log ++ [e]) := by
  obtain ⟨before,ec,after,rfl,hafter⟩ := h
  refine ⟨before,ec,after ++ [e],by simp,fun x hx => ?_⟩
  rcases List.mem_append.mp hx with hx | hx
  · exact hafter x hx
  · obtain rfl := List.mem_singleton.mp hx
    exact ⟨hdone,hsubmit⟩

end Logs

def Event.aside : Event F → Bool
  | .submitted _ => false
  | .asyncWrite _ => false
  | .writeDone _ => false
  | .asserted _ _ => false
  | _ => true

def Asserted (log : List (Event F)) : Prop := ∀ a holds, .asserted a holds ∈ log → holds = true

theorem Asserted.snoc {log : List (Event F)} (h : Asserted log) {e : Event F} (he : ∀ a, e ≠ .asserted a false) :
    Asserted (log ++ [e]) := by
  intro a holds hmem
  rcases List.mem_append.mp hmem with hmem | hmem
  · exact h a holds hmem
  · cases holds with
    | true => rfl
    | false => exact absurd (List.mem_singleton.mp hmem).symm (he a)

structure Region (s : State B F D) (o : Outbox F) : Prop where
  queue : o.queue = s.txQueue
  busy : o.busy = true ↔ s.sendState = .sendSending
  submitted : o.submitted = submitted s.log
  started : o.started = written s.log
  writes : s.writes = if o.busy then o.queue.head?.toList else []
  asserted : Asserted s.log

/-- An idle region has frames in its queue only if the last write has failed. -/
def Resting (s : State B F D) : Prop := s.sendState = .sendIdle → s.txQueue ≠ [] → Stalled s.log

def Sending (s : State B F D) : Prop := (∃ o, Region s o) ∧ Resting s

namespace Region

variable {o : Outbox F}

theorem init (d : D) : Region (State.init d : State B F D) Outbox.empty where
  queue := rfl
  busy := by simp [Outbox.empty,State.init]
  submitted := rfl
  started := rfl
  writes := rfl
  asserted := by simp [Asserted,State.init]

theorem idle (h : Region s o) (hidle : s.sendState = .sendIdle) : o.busy = false := by
  by_contra hbusy
  have hsending := h.busy.mp (by simpa using hbusy)
  rw [hidle] at hsending
  cases hsending

theorem initiateSend (h : Region s o) (hidle : s.sendState = .sendIdle) (hne : s.txQueue ≠ []) :
    ∃ o', Region s.initiateSend o' := by
  have hoff := h.idle hidle
  obtain ⟨frame,frames,hqueue⟩ := List.exists_cons_of_ne_nil hne
  have hfront : o.queue ≠ [] := by rwa [h.queue]
  have hwrites : s.writes = [] := by simpa [hoff] using h.writes
  have hsubmitted : ConnectionBase.submitted (((s.log ++ [Event.asserted .sendIdle true]) ++
      [Event.asserted .sendNonEmpty true]) ++ [Event.asyncWrite frame]) = ConnectionBase.submitted s.log := by
    rw [submitted_snoc,submitted_snoc,submitted_snoc]
    simp [Event.submitted?]
  have hwritten : written (((s.log ++ [Event.asserted .sendIdle true]) ++ [Event.asserted .sendNonEmpty true]) ++
      [Event.asyncWrite frame]) = written s.log ++ [frame] := by
    rw [written_snoc,written_snoc,written_snoc]
    simp [Event.asyncWrite?]
  simp only [State.initiateSend,emit,hqueue,hidle]
  refine ⟨o.start hfront,?_,?_,?_,?_,?_,?_⟩
  · exact h.queue.trans hqueue
  · simp [Outbox.start]
  · exact h.submitted.trans hsubmitted.symm
  · rw [o.started_start hfront hoff,h.started,h.queue,hqueue]
    exact hwritten.symm
  · simp [Outbox.start,h.queue,hqueue,hwrites]
  · exact ((h.asserted.snoc (by simp)).snoc (by simp)).snoc (by simp)

theorem submit (h : Region s o) (frame : F) :
    Region ({ s with txQueue := s.txQueue ++ [frame] }.emit (.submitted frame)) (o.submit frame) := by
  constructor
  · simp [Outbox.submit,emit,h.queue]
  · exact h.busy
  · simp [emit,h.submitted,submitted_snoc,Event.submitted?]
  · simp [emit,h.started,written_snoc,Event.asyncWrite?]
  · cases hb : o.busy with
    | false => simpa [emit,Outbox.submit,hb] using h.writes
    | true =>
      have hhead : (o.queue ++ [frame]).head? = o.queue.head? := List.head?_append_of_ne_nil _ (o.front hb)
      simpa [emit,Outbox.submit,hb,hhead] using h.writes
  · exact h.asserted.snoc (by simp)

/-- The write that has ended was the one of the front of the queue, which leaves the queue. -/
theorem written (h : Region s o) {frame : F} {writes : List F} (hw : s.writes = frame :: writes) (ec : ErrorCode) :
    Region { { { s with writes := writes }.emit (.writeDone ec) with sendState := .sendIdle }.emit
      (.asserted .writeNonEmpty (!s.txQueue.isEmpty)) with txQueue := s.txQueue.tail } o.finish := by
  have hbusy : o.busy = true := by
    by_contra hidle
    simp [h.writes,hidle] at hw
  obtain ⟨first,rest,hqueue⟩ := List.exists_cons_of_ne_nil (o.front hbusy)
  have hnil : writes = [] := by
    have hone := h.writes
    rw [hw,hbusy,hqueue] at hone
    simpa using (List.cons.inj hone).2
  have hne : s.txQueue.isEmpty = false := by simp [← h.queue,hqueue]
  have hsubmitted (holds : Bool) : ConnectionBase.submitted ((s.log ++ [Event.writeDone ec]) ++
      [Event.asserted .writeNonEmpty holds]) = ConnectionBase.submitted s.log := by
    rw [submitted_snoc,submitted_snoc]
    simp [Event.submitted?]
  have hwritten (holds : Bool) : ConnectionBase.written ((s.log ++ [Event.writeDone ec]) ++
      [Event.asserted .writeNonEmpty holds]) = ConnectionBase.written s.log := by
    rw [written_snoc,written_snoc]
    simp [Event.asyncWrite?]
  constructor
  · simp [Outbox.finish,h.queue]
  · simp [Outbox.finish,emit]
  · exact (o.submitted_finish.trans h.submitted).trans (hsubmitted _).symm
  · exact ((o.started_finish hbusy).trans h.started).trans (hwritten _).symm
  · simp [Outbox.finish,emit,hnil]
  · rw [hne]
    exact (h.asserted.snoc (by simp)).snoc (by simp)

theorem aside (h : Region s o) {e : Event F} (he : e.aside = true)
    (hsame : (t.txQueue,t.sendState,t.writes) = (s.txQueue,s.sendState,s.writes)) (hlog : t.log = s.log ++ [e]) :
    Region t o := by
  simp only [Prod.mk.injEq] at hsame
  obtain ⟨hqueue,hsend,hwrites⟩ := hsame
  have hsubmitted : e.submitted? = none := by cases e <;> first | rfl | cases he
  have hwritten : e.asyncWrite? = none := by cases e <;> first | rfl | cases he
  constructor
  · rw [hqueue]
    exact h.queue
  · rw [hsend]
    exact h.busy
  · simp [hlog,submitted_snoc,hsubmitted,h.submitted]
  · simp [hlog,written_snoc,hwritten,h.started]
  · rw [hwrites]
    exact h.writes
  · rw [hlog]
    refine h.asserted.snoc ?_
    rintro a rfl
    cases he

theorem frame (h : Region s o)
    (hsame : (t.txQueue,t.sendState,t.writes,t.log) = (s.txQueue,s.sendState,s.writes,s.log)) : Region t o := by
  simp only [Prod.mk.injEq] at hsame
  obtain ⟨hqueue,hsend,hwrites,hlog⟩ := hsame
  constructor
  · rw [hqueue]
    exact h.queue
  · rw [hsend]
    exact h.busy
  · rw [hlog]
    exact h.submitted
  · rw [hlog]
    exact h.started
  · rw [hwrites]
    exact h.writes
  · rw [hlog]
    exact h.asserted

end Region

namespace Sending

theorem init (d : D) : Sending (State.init d : State B F D) :=
  ⟨⟨_,Region.init d⟩,fun _ hne => absurd rfl hne⟩

theorem initiateSend (h : ∃ o, Region s o) (hidle : s.sendState = .sendIdle) (hne : s.txQueue ≠ []) :
    Sending s.initiateSend := by
  obtain ⟨o,ho⟩ := h
  refine ⟨ho.initiateSend hidle hne,fun hresting => ?_⟩
  obtain ⟨frame,frames,hqueue⟩ := List.exists_cons_of_ne_nil hne
  simp [State.initiateSend,emit,hqueue] at hresting

theorem notifySend (h : Sending s) (frame : F) : Sending (s.notifySend frame) := by
  obtain ⟨⟨o,ho⟩,hrest⟩ := h
  have hsubmitted := ho.submit frame
  simp only [State.notifySend]
  split
  · next hidle => exact initiateSend ⟨_,hsubmitted⟩ (by simpa using hidle) (by simp [emit])
  · next hbusy =>
    refine ⟨⟨_,hsubmitted⟩,fun hidle => ?_⟩
    simp [hidle] at hbusy

theorem notifyAll (h : Sending s) (frames : List F) : Sending (s.notifyAll frames) := by
  induction frames generalizing s with
  | nil => exact h
  | cons frame frames ih => exact ih (h.notifySend frame)

theorem aside (h : Sending s) {e : Event F} (he : e.aside = true)
    (hsame : (t.txQueue,t.sendState,t.writes) = (s.txQueue,s.sendState,s.writes)) (hlog : t.log = s.log ++ [e]) :
    Sending t := by
  obtain ⟨⟨o,ho⟩,hrest⟩ := h
  refine ⟨⟨o,ho.aside he hsame hlog⟩,?_⟩
  simp only [Prod.mk.injEq] at hsame
  intro hidle hne
  rw [hlog]
  refine (hrest (hsame.2.1 ▸ hidle) (hsame.1 ▸ hne)).snoc ?_ ?_
  · cases e <;> first | rfl | cases he
  · cases e <;> first | rfl | cases he

theorem frame (h : Sending s)
    (hsame : (t.txQueue,t.sendState,t.writes,t.log) = (s.txQueue,s.sendState,s.writes,s.log)) : Sending t := by
  obtain ⟨⟨o,ho⟩,hrest⟩ := h
  refine ⟨⟨o,ho.frame hsame⟩,?_⟩
  simp only [Prod.mk.injEq] at hsame
  obtain ⟨hqueue,hsend,-,hlog⟩ := hsame
  rw [Resting,hqueue,hsend,hlog]
  exact hrest

theorem fail (h : Sending s) (ec : Error) : Sending (s.fail v ec) := by
  have htold : Sending ({ s with derived := (v.onError ec s.derived).1 }.emit (.error ec)) :=
    h.aside (e := .error ec) rfl rfl rfl
  exact htold.notifyAll _

theorem enterReadState (h : Sending s) : Sending s.enterReadState := h.aside (e := .asyncRead) rfl rfl rfl

theorem handleConnect (h : Sending s) (ec : ErrorCode) : Sending (s.handleConnect v ec) := by
  cases ec with
  | some e => exact h.fail e
  | none =>
    have htold : Sending ({ s with derived := (v.onTransportUp s.derived).1 }.emit .transportUp) :=
      h.aside (e := .transportUp) rfl rfl rfl
    have hframes := htold.notifyAll (v.onTransportUp s.derived).2
    have hregistered (u : State B F D) (hu : Sending u) : Sending { u with closeRegistered := true } := hu.frame rfl
    exact (hregistered _ hframes).enterReadState

theorem onRead (h : Sending s) (ec : ErrorCode) : Sending (s.onRead v ec) := by
  cases ec with
  | some e => exact h.fail e
  | none =>
    have htold : Sending ({ s with derived := (v.onTextFrame s.buffer s.derived).1.1 }.emit .textFrame) :=
      h.aside (e := .textFrame) rfl rfl rfl
    have hframes := htold.notifyAll (v.onTextFrame s.buffer s.derived).1.2
    have hconsumed (u : State B F D) (hu : Sending u) : Sending { u with buffer := [] } := hu.frame rfl
    simp only [State.onRead]
    split
    · exact (hconsumed _ hframes).enterReadState
    · exact (hframes.fail _).fail _
    · exact (hframes.fail _).fail _

theorem onClose (h : Sending s) (ec : ErrorCode) : Sending (s.onClose v ec) := by
  cases ec with
  | some e => exact h.fail e
  | none => exact h

theorem onWrite (h : ∃ o, Region s o) {frame : F} {writes : List F} (hw : s.writes = frame :: writes) (ec : ErrorCode) :
    Sending (({ s with writes := writes }.emit (.writeDone ec)).onWrite v ec) := by
  obtain ⟨o,ho⟩ := h
  have hended := ho.written hw ec
  cases ec with
  | some e =>
    have hresting :
        Sending { { { s with writes := writes }.emit (.writeDone (some e)) with sendState := .sendIdle }.emit
          (.asserted .writeNonEmpty (!s.txQueue.isEmpty)) with txQueue := s.txQueue.tail } :=
      ⟨⟨_,hended⟩,fun _ _ => ⟨s.log,e,[.asserted .writeNonEmpty (!s.txQueue.isEmpty)],by simp [emit],by
        simp [Event.writeDone?,Event.submitted?]⟩⟩
    exact hresting.fail e
  | none =>
    simp only [State.onWrite]
    split
    · next hne => exact initiateSend ⟨_,hended⟩ rfl (by simpa using hne)
    · next hnil =>
      refine ⟨⟨_,hended⟩,fun _ hne => ?_⟩
      simp only [Bool.not_eq_true',Bool.not_eq_false,List.isEmpty_iff] at hnil
      exact absurd hnil hne

theorem step (h : Sending s) {a : Action B F D} (ha : step v s a = some t) : Sending t := by
  cases a with
  | connected ec =>
    obtain ⟨-,hok⟩ := Option.ite_none_right_eq_some.mp ha
    obtain rfl := Option.some.inj hok
    have hdone : Sending ({ s with connects := s.connects - 1 }.emit (.connectDone ec)) :=
      h.aside (e := .connectDone ec) rfl rfl rfl
    exact hdone.handleConnect ec
  | read ec bytes =>
    obtain ⟨-,hok⟩ := Option.ite_none_right_eq_some.mp ha
    obtain rfl := Option.some.inj hok
    have hdone : Sending ({ s with reads := s.reads - 1, buffer := s.buffer ++ bytes }.emit (.readDone ec)) :=
      h.aside (e := .readDone ec) rfl rfl rfl
    exact hdone.onRead ec
  | wrote ec =>
    cases hw : s.writes with
    | nil => simp [ConnectionBase.step,hw] at ha
    | cons frame writes =>
      simp only [ConnectionBase.step,hw,Option.some.injEq] at ha
      subst ha
      exact onWrite h.1 hw ec
  | closed ec =>
    obtain ⟨-,hok⟩ := Option.ite_none_right_eq_some.mp ha
    obtain rfl := Option.some.inj hok
    have hdone : Sending ({ s with closes := s.closes - 1 }.emit (.closeDone ec)) :=
      h.aside (e := .closeDone ec) rfl rfl rfl
    exact hdone.onClose ec
  | stop =>
    obtain rfl := Option.some.inj ha
    unfold State.stop
    split
    · exact h.aside (e := .asyncClose) rfl rfl rfl
    · exact h
  | notifySend frame =>
    obtain rfl := Option.some.inj ha
    exact h.notifySend frame
  | fail ec =>
    obtain rfl := Option.some.inj ha
    exact h.fail ec
  | derive d =>
    obtain rfl := Option.some.inj ha
    exact h.frame rfl

end Sending

theorem sending_of_reachable (h : (machine v).Reachable s) : Sending s := by
  refine h.invariant (I := Sending) ?_ fun s a t hs ha => hs.step ha
  rintro s ⟨d,rfl⟩
  exact Sending.init d

structure SendRegion (s : State B F D) : Prop where
  sending : s.sendState = .sendSending ↔ s.writes.length = 1
  one : s.writes.length ≤ 1
  front : ∀ frame ∈ s.writes, s.txQueue.head? = some frame
  asserted : Asserted s.log
  inOrder : written s.log <+: submitted s.log
  idle : s.sendState = .sendIdle → s.txQueue ≠ [] → Stalled s.log

/-- Whatever the derived class does, and whatever fails, the send region keeps its law. -/
theorem send_region_kept (h : (machine v).Reachable s) : SendRegion s := by
  obtain ⟨⟨o,ho⟩,hrest⟩ := sending_of_reachable h
  refine ⟨?_,?_,?_,ho.asserted,?_,hrest⟩
  · rw [← ho.busy,ho.writes]
    cases hbusy : o.busy with
    | false => simp
    | true =>
      obtain ⟨frame,frames,hqueue⟩ := List.exists_cons_of_ne_nil (o.front hbusy)
      simp [hqueue]
  · rw [ho.writes]
    split
    · cases o.queue.head? <;> simp
    · simp
  · intro frame hframe
    rw [ho.writes] at hframe
    split at hframe
    · rw [← ho.queue]
      simpa using hframe
    · simp at hframe
  · rw [← ho.started,← ho.submitted]
    exact o.started_prefix

/-- A derived class that answers every frame with two, and reports every error. -/
def reporting : Virtual ℕ ℕ Unit where
  onTransportUp := fun d => (d,[1])
  onError := fun _ d => (d,[9])
  onTextFrame := fun _ d => ((d,[2,3]),none)

/-- The first write fails while two more frames wait; the report of the error restarts the queue. -/
def firstWriteFails : List (Action ℕ ℕ Unit) :=
  [.connected none,.read none [5],.wrote (some .closed),.wrote none,.wrote (some .closed),.notifySend 4,.wrote none]

theorem send_region_firstWriteFails : ∃ s, (machine reporting).replay (State.init ()) firstWriteFails = some s ∧
    written s.log = [1,2,3,9,9] ∧ SendRegion s :=
  have hrun : (machine reporting).replay (State.init ()) firstWriteFails = some _ := rfl
  ⟨_,rfl,rfl,send_region_kept (Machine.Reachable.of_replay ⟨(),rfl⟩ hrun)⟩

end ConnectionBase
end BeastWebsocketEcho
