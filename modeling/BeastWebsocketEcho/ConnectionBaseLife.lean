import BeastWebsocketEcho.Chronicle
import BeastWebsocketEcho.ConnectionBase

/-!
# The life of an exchange connection

Behind one `notify_connect`, what the log says beside the send region has a closed form: the
connection comes up once at most, then its read loop turns until a read fails or a frame throws, and
none of its handlers starts it again. It is closed once at most, and no failure goes unreported.
-/

namespace BeastWebsocketEcho
namespace ConnectionBase

variable {B F D : Type*} {v : Virtual B F D} {s t : State B F D}

/-- The events of the send region, but for the end of a write. -/
def Event.sending : Event F → Bool
  | .submitted _ | .asyncWrite _ | .asserted _ _ => true
  | _ => false

def Event.reads : Event F → Bool
  | .asyncConnect | .connectDone _ | .transportUp | .asyncRead | .readDone _ | .textFrame => true
  | _ => false

def Event.closes : Event F → Bool
  | .asyncClose | .closeDone _ => true
  | _ => false

def Event.failure? : Event F → Option Error
  | .connectDone (some e) | .readDone (some e) | .writeDone (some e) | .closeDone (some e) => some e
  | _ => none

/-- What the log says beside the send region. -/
def told (log : List (Event F)) : List (Event F) := log.filter fun e => !e.sending

def reading (log : List (Event F)) : List (Event F) := log.filter Event.reads
def closing (log : List (Event F)) : List (Event F) := log.filter Event.closes

section Logs

variable (l k : List (Event F))

@[simp] theorem told_append : told (l ++ k) = told l ++ told k := List.filter_append ..
@[simp] theorem reading_append : reading (l ++ k) = reading l ++ reading k := List.filter_append ..
@[simp] theorem closing_append : closing (l ++ k) = closing l ++ closing k := List.filter_append ..

theorem reading_told : reading (told l) = reading l := by
  unfold reading told
  rw [List.filter_filter]
  congr 1
  funext e
  cases e <;> rfl

theorem closing_told : closing (told l) = closing l := by
  unfold closing told
  rw [List.filter_filter]
  congr 1
  funext e
  cases e <;> rfl

theorem told_initiateSend (s : State B F D) : told s.initiateSend.log = told s.log := by
  cases hqueue : s.txQueue with
  | nil => simp [State.initiateSend,State.emit,hqueue,told,Event.sending]
  | cons frame frames => simp [State.initiateSend,State.emit,hqueue,told,Event.sending]

theorem told_notifySend (s : State B F D) (frame : F) : told (s.notifySend frame).log = told s.log := by
  simp only [State.notifySend]
  split
  · rw [told_initiateSend]
    simp [State.emit,told,Event.sending]
  · simp [State.emit,told,Event.sending]

@[simp] theorem told_notifyAll (s : State B F D) (frames : List F) : told (s.notifyAll frames).log = told s.log := by
  induction frames generalizing s with
  | nil => rfl
  | cons frame frames ih => exact (ih (s.notifySend frame)).trans (told_notifySend s frame)

@[simp] theorem told_fail (s : State B F D) (ec : Error) :
    told (s.fail v ec).log = told s.log ++ [.error ec] :=
  (told_notifyAll _ _).trans (told_append s.log [.error ec])

@[simp] theorem told_onError (s : State B F D) (ec : Error) :
    told (s.onError v ec).log = told s.log ++ [.error ec] := told_fail s ec

end Logs

def Reported (log : List (Event F)) : Prop :=
  ∀ before e after ec, log = before ++ e :: after → e.failure? = some ec → ∃ rest, after = .error ec :: rest

theorem Reported.append {l k : List (Event F)} (hl : Reported l) (hk : Reported k) : Reported (l ++ k) := by
  intro before e after ec hsplit he
  rcases List.append_eq_append_iff.mp hsplit with ⟨mid,rfl,hrest⟩ | ⟨mid,hrest,hafter⟩
  · exact hk mid e after ec hrest he
  · cases mid with
    | nil => exact hk [] e after ec (by simpa using hafter.symm) he
    | cons f mid =>
      obtain ⟨rfl,rfl⟩ := List.cons.inj hafter
      obtain ⟨rest,rfl⟩ := hl before e mid ec hrest he
      exact ⟨rest ++ k,rfl⟩

theorem reported_single {e : Event F} (he : e.failure? = none) : Reported [e] := by
  intro before f after ec hsplit hf
  rcases List.singleton_eq_append_iff.mp hsplit with ⟨-,h⟩ | ⟨-,h⟩
  · obtain ⟨rfl,-⟩ := List.cons.inj h
    simp [he] at hf
  · simp at h

theorem reported_failure {e : Event F} {ec : Error} (he : e.failure? = some ec) : Reported [e,.error ec] := by
  intro before f after ec' hsplit hf
  cases before with
  | nil =>
    obtain ⟨rfl,rfl⟩ := List.cons.inj hsplit
    obtain rfl : ec = ec' := Option.some.inj (he.symm.trans hf)
    exact ⟨[],rfl⟩
  | cons g before =>
    obtain ⟨-,hrest⟩ := List.cons.inj hsplit
    exact reported_single (e := Event.error ec) rfl before f after ec' hrest hf

/-- Everything but the send region and the derived class, before and after a step, with what the log says. -/
inductive Turn (s t : State B F D) : List (Event F) → Prop
  | same (hbuffer : t.buffer = s.buffer)
      (hsame : (t.connects,t.reads,t.closes,t.closeRegistered) = (s.connects,s.reads,s.closes,s.closeRegistered))
      (k : List (Event F)) (hk : k = [] ∨ (∃ ec, k = [.error ec]) ∨ k = [.writeDone none] ∨
        ∃ ec, k = [.writeDone (some ec),.error ec]) : Turn s t k
  | refused (ec : Error) (hgo : 0 < s.connects)
      (hsame : (t.connects,t.reads,t.closes,t.closeRegistered) = (s.connects - 1,s.reads,s.closes,s.closeRegistered)) :
      Turn s t [.connectDone (some ec),.error ec]
  | up (hgo : 0 < s.connects) (hbuffer : t.buffer = s.buffer)
      (hsame : (t.connects,t.reads,t.closes,t.closeRegistered) = (s.connects - 1,s.reads + 1,s.closes,true)) :
      Turn s t [.connectDone none,.transportUp,.asyncRead]
  | lost (ec : Error) (hgo : 0 < s.reads)
      (hsame : (t.connects,t.reads,t.closes,t.closeRegistered) = (s.connects,s.reads - 1,s.closes,s.closeRegistered)) :
      Turn s t [.readDone (some ec),.error ec]
  | frame (hgo : 0 < s.reads) (hbuffer : t.buffer = [])
      (hsame : (t.connects,t.reads,t.closes,t.closeRegistered) = (s.connects,s.reads,s.closes,s.closeRegistered)) :
      Turn s t [.readDone none,.textFrame,.asyncRead]
  | threw (ec : Error) (hgo : 0 < s.reads)
      (hsame : (t.connects,t.reads,t.closes,t.closeRegistered) = (s.connects,s.reads - 1,s.closes,s.closeRegistered)) :
      Turn s t [.readDone none,.textFrame,.error ec,.error ec]
  | stopped (hgo : s.closeRegistered = true) (hbuffer : t.buffer = s.buffer)
      (hsame : (t.connects,t.reads,t.closes,t.closeRegistered) = (s.connects,s.reads,s.closes + 1,false)) :
      Turn s t [.asyncClose]
  | closed (ec : ErrorCode) (hgo : 0 < s.closes) (hbuffer : t.buffer = s.buffer)
      (hsame : (t.connects,t.reads,t.closes,t.closeRegistered) = (s.connects,s.reads,s.closes - 1,s.closeRegistered)) :
      Turn s t (.closeDone ec :: ec.toList.map Event.error)

section Fields

variable (s : State B F D) (frames : List F) (ec : Error)

@[simp] theorem notifyAll_buffer : (s.notifyAll frames).buffer = s.buffer :=
  (rest_eq_iff.mp (notifyAll_rest s frames)).2.1

@[simp] theorem notifyAll_closeRegistered : (s.notifyAll frames).closeRegistered = s.closeRegistered :=
  (rest_eq_iff.mp (notifyAll_rest s frames)).2.2.1

@[simp] theorem notifyAll_reads : (s.notifyAll frames).reads = s.reads :=
  (rest_eq_iff.mp (notifyAll_rest s frames)).2.2.2.2.1

@[simp] theorem notifyAll_closes : (s.notifyAll frames).closes = s.closes :=
  (rest_eq_iff.mp (notifyAll_rest s frames)).2.2.2.2.2

@[simp] theorem fail_buffer : (s.fail v ec).buffer = s.buffer := by simp [State.fail,State.onError,State.emit]
@[simp] theorem fail_reads : (s.fail v ec).reads = s.reads := by simp [State.fail,State.onError,State.emit]
@[simp] theorem fail_closes : (s.fail v ec).closes = s.closes := by simp [State.fail,State.onError,State.emit]
@[simp] theorem fail_closeRegistered : (s.fail v ec).closeRegistered = s.closeRegistered := by
  simp [State.fail,State.onError,State.emit]

@[simp] theorem initiateSend_buffer : s.initiateSend.buffer = s.buffer := (rest_eq_iff.mp (initiateSend_rest s)).2.1
@[simp] theorem initiateSend_reads : s.initiateSend.reads = s.reads := (rest_eq_iff.mp (initiateSend_rest s)).2.2.2.2.1
@[simp] theorem initiateSend_closes : s.initiateSend.closes = s.closes :=
  (rest_eq_iff.mp (initiateSend_rest s)).2.2.2.2.2
@[simp] theorem initiateSend_closeRegistered : s.initiateSend.closeRegistered = s.closeRegistered :=
  (rest_eq_iff.mp (initiateSend_rest s)).2.2.1

end Fields

@[simp] theorem onError_eq_fail (s : State B F D) (ec : Error) : s.onError v ec = s.fail v ec := rfl

theorem told_enterReadState (s : State B F D) : told s.enterReadState.log = told s.log ++ [.asyncRead] :=
  told_append s.log [.asyncRead]

theorem turn_read (hgo : 0 < s.reads) (ec : ErrorCode) (bytes : List B) :
    ∃ k, Turn s (({ s with reads := s.reads - 1, buffer := s.buffer ++ bytes }.emit (.readDone ec)).onRead v ec) k ∧
      told (({ s with reads := s.reads - 1, buffer := s.buffer ++ bytes }.emit (.readDone ec)).onRead v ec).log =
        told s.log ++ k := by
  have hdone (ec : ErrorCode) : told (s.log ++ [Event.readDone ec]) = told s.log ++ [.readDone ec] := told_append _ _
  cases ec with
  | some e =>
    refine ⟨_,Turn.lost e hgo (by simp [State.onRead,State.emit]),?_⟩
    simp only [State.onRead,told_fail]
    rw [State.emit,hdone,List.append_assoc]
    rfl
  | none =>
    have hframe (frame : List B) (d : D) (frames : List F) :
        told (({ { s with reads := s.reads - 1, buffer := frame }.emit (.readDone none) with derived := d }.emit
          .textFrame).notifyAll frames).log = told s.log ++ [.readDone none,.textFrame] := by
      rw [told_notifyAll]
      simp only [State.emit]
      rw [told_append,hdone,List.append_assoc]
      rfl
    simp only [State.onRead]
    split
    · refine ⟨_,Turn.frame hgo rfl ?_,?_⟩
      · simp [State.enterReadState,State.emit,Nat.sub_add_cancel hgo]
      · rw [told_enterReadState]
        simp only
        rw [hframe,List.append_assoc]
        rfl
    · next e _ =>
      refine ⟨_,Turn.threw e hgo (by simp [State.emit]),?_⟩
      rw [told_onError,told_fail,hframe,List.append_assoc,List.append_assoc]
      rfl
    · refine ⟨_,Turn.threw fault hgo (by simp [State.emit]),?_⟩
      rw [told_onError,told_fail,hframe,List.append_assoc,List.append_assoc]
      rfl

theorem turn_wrote (writes : List F) (ec : ErrorCode) :
    ∃ k, Turn s (({ s with writes := writes }.emit (.writeDone ec)).onWrite v ec) k ∧
      told (({ s with writes := writes }.emit (.writeDone ec)).onWrite v ec).log = told s.log ++ k := by
  have hdone (holds : Bool) : told ((s.log ++ [Event.writeDone ec]) ++ [Event.asserted .writeNonEmpty holds]) =
      told s.log ++ [.writeDone ec] := by
    rw [told_append,told_append]
    exact List.append_nil _
  cases ec with
  | some e =>
    refine ⟨_,Turn.same (by simp [State.onWrite,State.emit]) (by simp [State.onWrite,State.emit]) _
      (Or.inr (Or.inr (Or.inr ⟨e,rfl⟩))),?_⟩
    simp only [State.onWrite,told_fail,State.emit]
    rw [hdone,List.append_assoc]
    rfl
  | none =>
    simp only [State.onWrite]
    split
    · refine ⟨_,Turn.same (by simp [State.emit]) (by simp [State.emit]) _ (Or.inr (Or.inr (Or.inl rfl))),?_⟩
      rw [told_initiateSend]
      exact hdone _
    · exact ⟨_,Turn.same (by simp [State.emit]) (by simp [State.emit]) _ (Or.inr (Or.inr (Or.inl rfl))),hdone _⟩

theorem turn_step {a : Action B F D} (h : step v s a = some t) : ∃ k, Turn s t k ∧ told t.log = told s.log ++ k := by
  cases a with
  | connected ec =>
    obtain ⟨hgo,hok⟩ := Option.ite_none_right_eq_some.mp h
    obtain rfl := Option.some.inj hok
    have hdone : told (s.log ++ [Event.connectDone ec]) = told s.log ++ [.connectDone ec] := told_append _ _
    cases ec with
    | some e =>
      refine ⟨_,Turn.refused e hgo (by simp [State.handleConnect,State.emit]),?_⟩
      simp only [State.handleConnect,told_fail]
      rw [State.emit,hdone,List.append_assoc]
      rfl
    | none =>
      refine ⟨_,Turn.up hgo ?_ ?_,?_⟩
      · simp [State.handleConnect,State.enterReadState,State.emit]
      · simp [State.handleConnect,State.enterReadState,State.emit]
      · simp only [State.handleConnect]
        rw [told_enterReadState]
        simp only [told_notifyAll,State.emit]
        rw [told_append,hdone,List.append_assoc,List.append_assoc]
        rfl
  | read ec bytes =>
    obtain ⟨hgo,hok⟩ := Option.ite_none_right_eq_some.mp h
    obtain rfl := Option.some.inj hok
    exact turn_read hgo ec bytes
  | wrote ec =>
    cases hw : s.writes with
    | nil => simp [step,hw] at h
    | cons frame writes =>
      simp only [step,hw,Option.some.injEq] at h
      subst h
      exact turn_wrote writes ec
  | closed ec =>
    obtain ⟨hgo,hok⟩ := Option.ite_none_right_eq_some.mp h
    obtain rfl := Option.some.inj hok
    have hdone : told (s.log ++ [Event.closeDone ec]) = told s.log ++ [.closeDone ec] := told_append _ _
    refine ⟨_,Turn.closed ec hgo ?_ ?_,?_⟩
    · cases ec <;> simp [State.onClose,State.emit]
    · cases ec <;> simp [State.onClose,State.emit]
    · cases ec with
      | some e =>
        simp only [State.onClose,told_fail]
        rw [State.emit,hdone,List.append_assoc]
        rfl
      | none => exact hdone
  | stop =>
    obtain rfl := Option.some.inj h
    unfold State.stop
    split
    · next hgo => exact ⟨_,Turn.stopped hgo rfl rfl,told_append s.log [.asyncClose]⟩
    · exact ⟨[],Turn.same rfl rfl _ (Or.inl rfl),(List.append_nil _).symm⟩
  | notifySend frame =>
    obtain rfl := Option.some.inj h
    obtain ⟨-,hbuffer,hregistered,hconnects,hreads,hcloses⟩ := rest_eq_iff.mp (notifySend_rest s frame)
    refine ⟨[],Turn.same hbuffer (by rw [hconnects,hreads,hcloses,hregistered]) _ (Or.inl rfl),?_⟩
    rw [told_notifySend,List.append_nil]
  | fail ec =>
    obtain rfl := Option.some.inj h
    exact ⟨_,Turn.same (by simp) (by simp) _ (Or.inr (Or.inl ⟨ec,rfl⟩)),told_fail s ec⟩
  | derive d =>
    obtain rfl := Option.some.inj h
    exact ⟨[],Turn.same (s := s) (t := { s with derived := d }) rfl rfl _ (Or.inl rfl),(List.append_nil _).symm⟩

/-- The log of a connection whose read loop has gone on `n` times. -/
def comes (n : ℕ) : List (Event F) :=
  [.asyncConnect,.connectDone none,.transportUp,.asyncRead] ++
    (List.replicate n [Event.readDone none,.textFrame,.asyncRead]).flatten

theorem comes_succ (n : ℕ) : comes (n + 1) = (comes n : List (Event F)) ++ [.readDone none,.textFrame,.asyncRead] := by
  simp [comes,List.replicate_succ']

/-- Where the connection is, and the only things that can have happened until then. -/
inductive Phase (s : State B F D) : Prop
  | connecting (hops : (s.connects,s.reads) = (1,0)) (hbuffer : s.buffer = []) (hlog : reading s.log = [.asyncConnect])
  | refused (ec : Error) (hops : (s.connects,s.reads) = (0,0))
      (hlog : reading s.log = [.asyncConnect,.connectDone (some ec)])
  | up (n : ℕ) (hops : (s.connects,s.reads) = (0,1)) (hbuffer : s.buffer = []) (hlog : reading s.log = comes n)
  | lost (n : ℕ) (ec : Error) (hops : (s.connects,s.reads) = (0,0))
      (hlog : reading s.log = comes n ++ [.readDone (some ec)])
  | threw (n : ℕ) (hops : (s.connects,s.reads) = (0,0)) (hlog : reading s.log = comes n ++ [.readDone none,.textFrame])

/-- The transport is closed once at most, and not before it has come up. -/
inductive Closing (s : State B F D) : Prop
  | waits (hcloses : s.closes = 0) (hregistered : s.closeRegistered = true ↔ .transportUp ∈ reading s.log)
      (hlog : closing s.log = [])
  | asked (hcloses : s.closes = 1) (hregistered : s.closeRegistered = false) (hup : .transportUp ∈ reading s.log)
      (hlog : closing s.log = [.asyncClose])
  | closed (ec : ErrorCode) (hcloses : s.closes = 0) (hregistered : s.closeRegistered = false)
      (hup : .transportUp ∈ reading s.log) (hlog : closing s.log = [.asyncClose,.closeDone ec])

section Turns

variable {k : List (Event F)}

theorem reading_turn (hlog : told t.log = told s.log ++ k) : reading t.log = reading s.log ++ reading k := by
  rw [← reading_told t.log,hlog,reading_append,reading_told]

theorem closing_turn (hlog : told t.log = told s.log ++ k) : closing t.log = closing s.log ++ closing k := by
  rw [← closing_told t.log,hlog,closing_append,closing_told]

theorem Phase.frame (h : Phase s) (hops : (t.connects,t.reads) = (s.connects,s.reads)) (hbuffer : t.buffer = s.buffer)
    (hlog : reading t.log = reading s.log) : Phase t := by
  cases h with
  | connecting h₁ h₂ h₃ => exact Phase.connecting (hops.trans h₁) (hbuffer.trans h₂) (hlog.trans h₃)
  | refused ec h₁ h₂ => exact Phase.refused ec (hops.trans h₁) (hlog.trans h₂)
  | up n h₁ h₂ h₃ => exact Phase.up n (hops.trans h₁) (hbuffer.trans h₂) (hlog.trans h₃)
  | lost n ec h₁ h₂ => exact Phase.lost n ec (hops.trans h₁) (hlog.trans h₂)
  | threw n h₁ h₂ => exact Phase.threw n (hops.trans h₁) (hlog.trans h₂)

theorem Phase.of_connects (h : Phase s) (hgo : 0 < s.connects) :
    (s.connects,s.reads) = (1,0) ∧ s.buffer = [] ∧ reading s.log = [.asyncConnect] := by
  cases h with
  | connecting h₁ h₂ h₃ => exact ⟨h₁,h₂,h₃⟩
  | _ =>
    simp only [Prod.mk.injEq] at *
    omega

theorem Phase.of_reads (h : Phase s) (hgo : 0 < s.reads) :
    (s.connects,s.reads) = (0,1) ∧ s.buffer = [] ∧ ∃ n, reading s.log = comes n := by
  cases h with
  | up n h₁ h₂ h₃ => exact ⟨h₁,h₂,n,h₃⟩
  | _ =>
    simp only [Prod.mk.injEq] at *
    omega

theorem Phase.turn (h : Phase s) (hturn : Turn s t k) (hlog : told t.log = told s.log ++ k) : Phase t := by
  have hreading := reading_turn hlog
  cases hturn with
  | same hbuffer hsame k hk =>
    simp only [Prod.mk.injEq] at hsame
    refine h.frame (by rw [hsame.1,hsame.2.1]) hbuffer ?_
    rcases hk with rfl | ⟨ec,rfl⟩ | rfl | ⟨ec,rfl⟩ <;> simpa [reading,Event.reads] using hreading
  | stopped hgo hbuffer hsame =>
    simp only [Prod.mk.injEq] at hsame
    exact h.frame (by rw [hsame.1,hsame.2.1]) hbuffer (by simpa [reading,Event.reads] using hreading)
  | closed ec hgo hbuffer hsame =>
    simp only [Prod.mk.injEq] at hsame
    refine h.frame (by rw [hsame.1,hsame.2.1]) hbuffer ?_
    cases ec <;> simpa [reading,Event.reads] using hreading
  | refused ec hgo hsame =>
    obtain ⟨hops,-,hread⟩ := h.of_connects hgo
    simp only [Prod.mk.injEq] at hsame hops
    refine Phase.refused ec (by rw [hsame.1,hsame.2.1,hops.1,hops.2]) ?_
    rw [hreading,hread]
    rfl
  | up hgo hbuffer hsame =>
    obtain ⟨hops,hempty,hread⟩ := h.of_connects hgo
    simp only [Prod.mk.injEq] at hsame hops
    refine Phase.up 0 (by rw [hsame.1,hsame.2.1,hops.1,hops.2]) (hbuffer.trans hempty) ?_
    rw [hreading,hread]
    rfl
  | lost ec hgo hsame =>
    obtain ⟨hops,-,n,hread⟩ := h.of_reads hgo
    simp only [Prod.mk.injEq] at hsame hops
    refine Phase.lost n ec (by rw [hsame.1,hsame.2.1,hops.1,hops.2]) ?_
    rw [hreading,hread]
    rfl
  | frame hgo hbuffer hsame =>
    obtain ⟨hops,-,n,hread⟩ := h.of_reads hgo
    simp only [Prod.mk.injEq] at hsame hops
    refine Phase.up (n + 1) (by rw [hsame.1,hsame.2.1,hops.1,hops.2]) hbuffer ?_
    rw [hreading,hread,comes_succ]
    rfl
  | threw ec hgo hsame =>
    obtain ⟨hops,-,n,hread⟩ := h.of_reads hgo
    simp only [Prod.mk.injEq] at hsame hops
    refine Phase.threw n (by rw [hsame.1,hsame.2.1,hops.1,hops.2]) ?_
    rw [hreading,hread]
    rfl

theorem Closing.frame (h : Closing s) (hsame : (t.closes,t.closeRegistered) = (s.closes,s.closeRegistered))
    (hlog : closing t.log = closing s.log) (hup : .transportUp ∈ reading t.log ↔ .transportUp ∈ reading s.log) :
    Closing t := by
  simp only [Prod.mk.injEq] at hsame
  cases h with
  | waits h₁ h₂ h₃ => exact Closing.waits (hsame.1.trans h₁) (by rw [hsame.2,h₂,hup]) (hlog.trans h₃)
  | asked h₁ h₂ h₃ h₄ => exact Closing.asked (hsame.1.trans h₁) (hsame.2.trans h₂) (hup.mpr h₃) (hlog.trans h₄)
  | closed ec h₁ h₂ h₃ h₄ => exact Closing.closed ec (hsame.1.trans h₁) (hsame.2.trans h₂) (hup.mpr h₃) (hlog.trans h₄)

theorem Closing.turn (h : Closing s) (hphase : Phase s) (hturn : Turn s t k) (hlog : told t.log = told s.log ++ k) :
    Closing t := by
  have hreading := reading_turn hlog
  have hclosing := closing_turn hlog
  have hquiet (hreads : .transportUp ∉ reading k) (hcloses : closing k = [])
      (hsame : (t.closes,t.closeRegistered) = (s.closes,s.closeRegistered)) : Closing t := by
    refine h.frame hsame (by rw [hclosing,hcloses,List.append_nil]) ?_
    rw [hreading,List.mem_append]
    exact or_iff_left hreads
  cases hturn with
  | same hbuffer hsame k hk =>
    simp only [Prod.mk.injEq] at hsame
    rcases hk with rfl | ⟨ec,rfl⟩ | rfl | ⟨ec,rfl⟩
    all_goals exact hquiet (by simp [reading,Event.reads]) rfl (by rw [hsame.2.2.1,hsame.2.2.2])
  | refused ec hgo hsame =>
    simp only [Prod.mk.injEq] at hsame
    exact hquiet (by simp [reading,Event.reads]) rfl (by rw [hsame.2.2.1,hsame.2.2.2])
  | lost ec hgo hsame =>
    simp only [Prod.mk.injEq] at hsame
    exact hquiet (by simp [reading,Event.reads]) rfl (by rw [hsame.2.2.1,hsame.2.2.2])
  | frame hgo hbuffer hsame =>
    simp only [Prod.mk.injEq] at hsame
    exact hquiet (by simp [reading,Event.reads]) rfl (by rw [hsame.2.2.1,hsame.2.2.2])
  | threw ec hgo hsame =>
    simp only [Prod.mk.injEq] at hsame
    exact hquiet (by simp [reading,Event.reads]) rfl (by rw [hsame.2.2.1,hsame.2.2.2])
  | up hgo hbuffer hsame =>
    -- Nothing was closed before the transport came up.
    obtain ⟨-,-,hread⟩ := hphase.of_connects hgo
    simp only [Prod.mk.injEq] at hsame
    cases h with
    | waits h₁ _ h₃ =>
      refine Closing.waits (hsame.2.2.1.trans h₁) (iff_of_true hsame.2.2.2 ?_) (hclosing.trans (by rw [h₃]; rfl))
      rw [hreading]
      simp [reading,Event.reads]
    | asked _ _ h₃ => simp [hread] at h₃
    | closed _ _ _ h₃ => simp [hread] at h₃
  | stopped hgo hbuffer hsame =>
    simp only [Prod.mk.injEq] at hsame
    cases h with
    | waits h₁ h₂ h₃ =>
      refine Closing.asked (by rw [hsame.2.2.1,h₁]) hsame.2.2.2 ?_ (hclosing.trans (by rw [h₃]; rfl))
      rw [hreading]
      exact List.mem_append_left _ (h₂.mp hgo)
    | asked _ h₂ => simp [h₂] at hgo
    | closed _ _ h₂ => simp [h₂] at hgo
  | closed ec hgo hbuffer hsame =>
    simp only [Prod.mk.injEq] at hsame
    have hk : closing (Event.closeDone ec :: ec.toList.map Event.error) = ([.closeDone ec] : List (Event F)) := by
      cases ec <;> rfl
    cases h with
    | waits h₁ => omega
    | closed _ h₁ => omega
    | asked h₁ h₂ h₃ h₄ =>
      refine Closing.closed ec (by rw [hsame.2.2.1,h₁]) (hsame.2.2.2.trans h₂) ?_ (hclosing.trans (by rw [h₄,hk]; rfl))
      rw [hreading]
      exact List.mem_append_left _ h₃

theorem Turn.reported (h : Turn s t k) : Reported k := by
  cases h with
  | same hbuffer hsame k hk =>
    rcases hk with rfl | ⟨ec,rfl⟩ | rfl | ⟨ec,rfl⟩
    · intro before e after ec hsplit
      simp at hsplit
    · exact reported_single rfl
    · exact reported_single rfl
    · exact reported_failure rfl
  | refused ec => exact reported_failure rfl
  | up => exact (reported_single rfl).append ((reported_single rfl).append (reported_single rfl))
  | lost ec => exact reported_failure rfl
  | frame => exact (reported_single rfl).append ((reported_single rfl).append (reported_single rfl))
  | threw ec =>
    exact (reported_single rfl).append
      ((reported_single rfl).append ((reported_single rfl).append (reported_single rfl)))
  | stopped => exact reported_single rfl
  | closed ec =>
    cases ec with
    | some e => exact reported_failure rfl
    | none => exact reported_single rfl

end Turns

structure Life (s : State B F D) : Prop where
  phase : Phase s
  closing : Closing s
  reported : Reported (told s.log)

theorem life_init (d : D) : Life (State.init d : State B F D) where
  phase := Phase.connecting rfl rfl rfl
  closing := Closing.waits rfl (by simp [State.init,reading,Event.reads]) rfl
  reported := reported_single rfl

theorem life_step {a : Action B F D} (h : Life s) (ha : step v s a = some t) : Life t := by
  obtain ⟨k,hturn,hlog⟩ := turn_step ha
  refine ⟨h.phase.turn hturn hlog,h.closing.turn h.phase hturn hlog,?_⟩
  rw [hlog]
  exact h.reported.append hturn.reported

theorem reachable_life (h : (machine v).Reachable s) : Life s := by
  refine h.invariant (I := Life) ?_ fun s a t hs ha => life_step hs ha
  rintro s ⟨d,rfl⟩
  exact life_init d

def countingErrors : Virtual ℕ ℕ ℕ where
  onTransportUp := fun d => (d,[1])
  onError := fun _ d => (d + 1,[])
  onTextFrame := fun frame d => ((d,frame),none)

end ConnectionBase
end BeastWebsocketEcho
