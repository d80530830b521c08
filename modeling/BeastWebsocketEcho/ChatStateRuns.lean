import BeastWebsocketEcho.ChatState

/-!
# One error notification, one way out

`Step` lists what each handler of the chat machine does, with the calls it makes. The
invariant `Regular` ties the stage, the place of `run_state` and the first notification
to what the log says was called.
-/

namespace BeastWebsocketEcho
namespace ChatState

inductive Step (s : State) : State → List Call → Prop
  | start (hr : s.run = .notStarted) :
      Step s { s with
        base := { s.base with state := .handshaking }
        run := .accepting
        accept := some .pending
        log := s.log ++ [.called .asyncAccept] } [.asyncAccept]
  | acceptCompletes (st : Status ErrorCode) : Step s { s with accept := some st } []
  | acceptThrows (result : ErrorCode) (e : Error) (hr : s.run = .accepting)
      (he : result = some e ∨ (result = none ∧ s.base.ec = some e)) :
      Step s { s with
        base := { s.base with state := .exitState }
        run := .threw e
        accept := none
        log := s.log ++ [.accepted result] } []
  | connected (hr : s.run = .accepting) (he : s.base.ec = none) :
      Step s { s with
        base := { s.base with state := .chatting }
        run := .receiving []
        accept := none
        read := some .pending
        log := s.log ++ [.accepted none] ++ [.called .onConnected] ++ [.called .asyncRead] }
        [.onConnected,.asyncRead]
  | readCompletes (st : Status (Except Error (List Char))) : Step s { s with read := some st } []
  | received (rxbuffer bytes : List Char) (hr : s.run = .receiving rxbuffer) :
      Step s { s with
        run := (receive (rxbuffer ++ bytes)).1
        read := some .pending
        log := s.log ++ [.received bytes] ++ [.called (.onMessage (String.ofList (rxbuffer ++ bytes)))] ++
          [.called .asyncRead] }
        [.onMessage (String.ofList (rxbuffer ++ bytes)),.asyncRead]
  | readEnds (rxbuffer : List Char) (hr : s.run = .receiving rxbuffer) :
      Step s { s with base := { s.base with state := .exitState }, run := .returned, read := none } []
  | again (nec : Error) (he : s.base.ec.isSome = true) :
      Step s { s with log := s.log ++ [.notified nec s.base.state] } []
  | aside (nec : Error) (he : s.base.ec = none) (hs : s.base.state = .initialState ∨ s.base.state = .exitState) :
      Step s { s with
        base := { s.base with ec := some nec }
        log := s.log ++ [.notified nec s.base.state] } []
  | cancels (nec : Error) (he : s.base.ec = none) (hs : s.base.state = .handshaking) :
      Step s { s with
        base := { s.base with ec := some nec }
        accept := s.accept.map Status.cancel
        read := s.read.map Status.cancel
        log := s.log ++ [.notified nec .handshaking] ++ [.called .cancelLowestLayer] ++ [.called .txqueueStop] }
        [.cancelLowestLayer,.txqueueStop]
  | closes (nec : Error) (he : s.base.ec = none) (hs : s.base.state = .chatting) :
      Step s { s with
        base := { s.base with ec := some nec }
        closing := s.closing + 1
        log := s.log ++ [.notified nec .chatting] ++ [.called .txqueueStop] ++
          [.called (.asyncClose "shutting down")] }
        [.txqueueStop,.asyncClose "shutting down"]
  | closeCompletes : Step s { s with closing := s.closing - 1 } []

theorem step_resumeAccept {s t : State} {cs : List Call} (h : step s .resumeAccept = some (t,cs)) :
    Step s t cs := by
  simp only [step] at h
  split at h
  · next result hrun haccept =>
    cases result with
    | some e =>
      have hstep := Step.acceptThrows (some e) e hrun (Or.inl rfl)
      simp only [resumeAccept,rethrow,State.proceed,State.performAll,List.foldl_nil,Option.some.injEq,
        Prod.mk.injEq] at h
      obtain ⟨rfl,rfl⟩ := h
      exact hstep
    | none =>
      cases he : s.base.ec with
      | some e =>
        have hstep := Step.acceptThrows none e hrun (Or.inr ⟨rfl,he⟩)
        simp only [resumeAccept,rethrow,he,State.proceed,State.performAll,List.foldl_nil,
          Option.some.injEq,Prod.mk.injEq] at h
        obtain ⟨rfl,rfl⟩ := h
        simpa [he] using hstep
      | none =>
        have hstep := Step.connected hrun he
        simp only [resumeAccept,he,State.proceed,State.performAll,List.foldl_cons,List.foldl_nil,
          Option.some.injEq,Prod.mk.injEq] at h
        obtain ⟨rfl,rfl⟩ := h
        simpa [State.perform,State.carry,he] using hstep
  · exact absurd h (by simp)

theorem step_resumeRead {s t : State} {cs : List Call} (h : step s .resumeRead = some (t,cs)) : Step s t cs := by
  simp only [step] at h
  split at h
  · next rxbuffer result hrun hread =>
    cases result with
    | ok bytes =>
      have hstep := Step.received rxbuffer bytes hrun
      simp only [resumeRead,receive,State.proceed,State.performAll,List.foldl_cons,List.foldl_nil,
        Option.some.injEq,Prod.mk.injEq] at h
      obtain ⟨rfl,rfl⟩ := h
      simpa [State.perform,State.carry,receive] using hstep
    | error e =>
      have hstep := Step.readEnds rxbuffer hrun
      simp only [resumeRead,State.proceed,State.performAll,List.foldl_nil,Option.some.injEq,
        Prod.mk.injEq] at h
      obtain ⟨rfl,rfl⟩ := h
      simpa using hstep
  · exact absurd h (by simp)

theorem step_notify (s : State) (nec : Error) : Step s (s.notify nec).1 (s.notify nec).2 := by
  cases he : s.base.ec with
  | some e =>
    have hstep := Step.again (s := s) nec (by simp [he])
    simpa [State.notify,notifyError,he,State.performAll] using hstep
  | none =>
    cases hs : s.base.state with
    | initialState =>
      have hstep := Step.aside nec he (Or.inl hs)
      simpa [State.notify,notifyError,he,hs,State.performAll] using hstep
    | handshaking =>
      have hstep := Step.cancels nec he hs
      simpa [State.notify,notifyError,he,hs,State.performAll,State.perform,State.carry] using hstep
    | chatting =>
      have hstep := Step.closes nec he hs
      simpa [State.notify,notifyError,he,hs,State.performAll,State.perform,State.carry] using hstep
    | exitState =>
      have hstep := Step.aside nec he (Or.inr hs)
      simpa [State.notify,notifyError,he,hs,State.performAll] using hstep

theorem step_cases {s t : State} {a : Action} {cs : List Call} (h : step s a = some (t,cs)) : Step s t cs := by
  cases a with
  | start =>
    simp only [step] at h
    split at h
    · next hrun =>
      simp only [runState,State.proceed,State.performAll,List.foldl_cons,List.foldl_nil,
        Option.some.injEq,Prod.mk.injEq] at h
      obtain ⟨rfl,rfl⟩ := h
      exact Step.start hrun
    · exact absurd h (by simp)
  | acceptCompletes result =>
    obtain ⟨st,-,heq⟩ := Option.map_eq_some_iff.mp h
    obtain ⟨rfl,rfl⟩ := Prod.mk.inj heq
    exact Step.acceptCompletes st
  | resumeAccept => exact step_resumeAccept h
  | readCompletes result =>
    obtain ⟨st,-,heq⟩ := Option.map_eq_some_iff.mp h
    obtain ⟨rfl,rfl⟩ := Prod.mk.inj heq
    exact Step.readCompletes st
  | resumeRead => exact step_resumeRead h
  | notify nec =>
    have heq : s.notify nec = (t,cs) := by simpa [step] using h
    have hstep := step_notify s nec
    rw [heq] at hstep
    exact hstep
  | closeCompletes =>
    simp only [step] at h
    split at h
    · obtain ⟨rfl,rfl⟩ : { s with closing := s.closing - 1 } = t ∧ [] = cs := by simpa using h
      exact Step.closeCompletes
    · exact absurd h (by simp)

@[simp] def Event.notified? : Event → Option (Error × Stage)
  | .notified nec state => some (nec,state)
  | _ => none

@[simp] def Event.accepted? : Event → Option ErrorCode
  | .accepted result => some result
  | _ => none

@[simp] def Event.received? : Event → Option (List Char)
  | .received bytes => some bytes
  | _ => none

@[simp] def Event.called? : Event → Option Call
  | .called c => some c
  | _ => none

@[simp] def Call.isClose : Call → Bool
  | .asyncClose _ => true
  | _ => false

@[simp] def Call.message? : Call → Option String
  | .onMessage message => some message
  | _ => none

def notifications (log : List Event) : List (Error × Stage) := log.filterMap Event.notified?
/-- The results of the handshake with which `run_state` was resumed. -/
def accepts (log : List Event) : List ErrorCode := log.filterMap Event.accepted?
def reads (log : List Event) : List (List Char) := log.filterMap Event.received?
def calls (log : List Event) : List Call := log.filterMap Event.called?
def connects (log : List Event) : ℕ := (calls log).count .onConnected
def cancels (log : List Event) : ℕ := (calls log).count .cancelLowestLayer
def closes (log : List Event) : ℕ := (calls log).countP Call.isClose
def queueStops (log : List Event) : ℕ := (calls log).count .txqueueStop
def messages (log : List Event) : List String := (calls log).filterMap Call.message?

section Logs

variable (l k : List Event) (e : Event)

@[simp] theorem notifications_nil : notifications [] = [] := rfl
@[simp] theorem accepts_nil : accepts [] = [] := rfl
@[simp] theorem reads_nil : reads [] = [] := rfl
@[simp] theorem calls_nil : calls [] = [] := rfl
@[simp] theorem notifications_append : notifications (l ++ k) = notifications l ++ notifications k :=
  List.filterMap_append
@[simp] theorem accepts_append : accepts (l ++ k) = accepts l ++ accepts k := List.filterMap_append
@[simp] theorem reads_append : reads (l ++ k) = reads l ++ reads k := List.filterMap_append
@[simp] theorem calls_append : calls (l ++ k) = calls l ++ calls k := List.filterMap_append
@[simp] theorem notifications_cons : notifications (e :: l) = e.notified?.toList ++ notifications l :=
  filterMap_cons_toList _ _ _
@[simp] theorem accepts_cons : accepts (e :: l) = e.accepted?.toList ++ accepts l := filterMap_cons_toList _ _ _
@[simp] theorem reads_cons : reads (e :: l) = e.received?.toList ++ reads l := filterMap_cons_toList _ _ _
@[simp] theorem calls_cons : calls (e :: l) = e.called?.toList ++ calls l := filterMap_cons_toList _ _ _

theorem connects_of_calls {cs : List Call} (h : calls k = calls l ++ cs) :
    connects k = connects l + cs.count .onConnected := by simp [connects,h]
theorem cancels_of_calls {cs : List Call} (h : calls k = calls l ++ cs) :
    cancels k = cancels l + cs.count .cancelLowestLayer := by simp [cancels,h]
theorem closes_of_calls {cs : List Call} (h : calls k = calls l ++ cs) :
    closes k = closes l + cs.countP Call.isClose := by simp [closes,h]
theorem queueStops_of_calls {cs : List Call} (h : calls k = calls l ++ cs) :
    queueStops k = queueStops l + cs.count .txqueueStop := by simp [queueStops,h]
theorem messages_of_calls {cs : List Call} (h : calls k = calls l ++ cs) :
    messages k = messages l ++ cs.filterMap Call.message? := by simp [messages,h]

end Logs

theorem Step.calls_eq {s t : State} {cs : List Call} (h : Step s t cs) : calls t.log = calls s.log ++ cs := by
  cases h <;> simp

def Run.stage : Run → Stage
  | .notStarted => .initialState
  | .accepting => .handshaking
  | .receiving _ => .chatting
  | .returned => .exitState
  | .threw _ => .exitState

/-- What the results of the handshake tell of the place of `run_state`. -/
def Outcome (s : State) : Prop :=
  match s.run with
  | .notStarted => accepts s.log = [] ∧ connects s.log = 0
  | .accepting => accepts s.log = [] ∧ connects s.log = 0
  | .receiving _ => accepts s.log = [none] ∧ connects s.log = 1
  | .returned => accepts s.log = [none] ∧ connects s.log = 1
  | .threw e => connects s.log = 0 ∧
      ∃ r, accepts s.log = [r] ∧ (r = some e ∨ (r = none ∧ s.base.ec = some e))

/-- The first notification leaves the outcome: while there is no `ec`, only an error of the handshake
itself can have been thrown. -/
theorem Outcome.notified {s t : State} (h : Outcome s) (he : s.base.ec = none) (hrun : t.run = s.run)
    (haccepts : accepts t.log = accepts s.log) (hconnects : connects t.log = connects s.log) : Outcome t := by
  unfold Outcome at h ⊢
  rw [hrun,haccepts,hconnects]
  cases hr : s.run with
  | threw e =>
    simp only [hr,he] at h
    obtain ⟨hzero,r,hr,rfl | ⟨-,hsome⟩⟩ := h
    · exact ⟨hzero,some e,hr,Or.inl rfl⟩
    · simp at hsome
  | _ => simpa [hr] using h

def Order (before : List Event) (e : Event) : Prop :=
  (e = .called .onConnected → notifications before = []) ∧ ((∃ r, e = .accepted r) → connects before = 0)

structure Regular (s : State) : Prop where
  stage : s.base.state = s.run.stage
  ec : s.base.ec = (notifications s.log).head?.map Prod.fst
  outcome : Outcome s
  order : Chronicle Order s.log

theorem regular_init : Regular State.init := ⟨rfl,rfl,⟨rfl,rfl⟩,Chronicle.nil⟩

theorem regular_step {s t : State} {cs : List Call} (h : Regular s) (hstep : Step s t cs) : Regular t := by
  obtain ⟨hstage,hec,hout,horder⟩ := h
  have hconnects := connects_of_calls _ _ hstep.calls_eq
  cases hstep with
  | start hr =>
    simp only [Outcome,hr] at hout
    exact ⟨rfl,by simpa using hec,by simpa [Outcome,hout] using hconnects,horder.snoc (by simp [Order])⟩
  | acceptCompletes st => exact ⟨hstage,hec,hout,horder⟩
  | acceptThrows result e hr he =>
    simp only [Outcome,hr] at hout
    refine ⟨rfl,by simpa using hec,⟨by simpa [hout] using hconnects,result,by simp [hout],he⟩,?_⟩
    exact horder.snoc (by simp [Order,hout])
  | connected hr he =>
    simp only [Outcome,hr] at hout
    have hnone : notifications s.log = [] := by simpa [he] using hec.symm
    have hbefore : connects (s.log ++ [Event.accepted none]) = 0 := by simpa [connects] using hout.2
    refine ⟨rfl,by simpa using hec,⟨by simp [hout],by simpa [hout] using hconnects⟩,?_⟩
    exact ((horder.snoc (by simp [Order,hout])).snoc (by simp [Order,hnone])).snoc (by simp [Order])
  | readCompletes st => exact ⟨hstage,hec,hout,horder⟩
  | received rxbuffer bytes hr =>
    simp only [Outcome,hr] at hout
    rw [hr] at hstage
    refine ⟨hstage,by simpa using hec,⟨by simp [hout],by simpa [hout] using hconnects⟩,?_⟩
    exact ((horder.snoc (by simp [Order])).snoc (by simp [Order])).snoc (by simp [Order])
  | readEnds rxbuffer hr =>
    simp only [Outcome,hr] at hout
    exact ⟨rfl,hec,hout,horder⟩
  | again nec he =>
    have hne : notifications s.log ≠ [] := by
      intro hnil
      simp [hec,hnil] at he
    refine ⟨hstage,?_,?_,horder.snoc (by simp [Order])⟩
    · simpa [List.head?_append_of_ne_nil _ hne] using hec
    · simpa [Outcome,connects] using hout
  | aside nec he hs =>
    have hnone : notifications s.log = [] := by simpa [he] using hec.symm
    exact ⟨hstage,by simp [hnone],hout.notified he rfl (by simp) (by simpa using hconnects),
      horder.snoc (by simp [Order])⟩
  | cancels nec he hs =>
    have hnone : notifications s.log = [] := by simpa [he] using hec.symm
    exact ⟨hstage,by simp [hnone],hout.notified he rfl (by simp) (by simpa using hconnects),
      ((horder.snoc (by simp [Order])).snoc (by simp [Order])).snoc (by simp [Order])⟩
  | closes nec he hs =>
    have hnone : notifications s.log = [] := by simpa [he] using hec.symm
    exact ⟨hstage,by simp [hnone],hout.notified he rfl (by simp) (by simpa using hconnects),
      ((horder.snoc (by simp [Order])).snoc (by simp [Order])).snoc (by simp [Order])⟩
  | closeCompletes => exact ⟨hstage,hec,hout,horder⟩

theorem Regular.connects_le_one {s : State} (h : Regular s) : connects s.log ≤ 1 := by
  have hout := h.outcome
  unfold Outcome at hout
  split at hout <;> omega

/-- What `notify_error` has done so far to get the chat to end. -/
structure WayOut (s : State) : Prop where
  stops : queueStops s.log = cancels s.log + closes s.log
  once : cancels s.log + closes s.log ≤ 1
  clean : s.base.ec = none → cancels s.log = 0 ∧ closes s.log = 0
  cancelled : 0 < cancels s.log → connects s.log = 0
  closed : 0 < closes s.log ↔ (notifications s.log).head?.map Prod.snd = some .chatting

/-- A step that calls none of the ways out, and connects only while there is no `ec`. -/
theorem WayOut.aside {s t : State} {cs : List Call} (h : WayOut s) (hstep : Step s t cs)
    (hcs : ∀ c ∈ cs, c ≠ .cancelLowestLayer ∧ c ≠ .txqueueStop ∧ c.isClose = false)
    (hec : t.base.ec = none → s.base.ec = none) (hconnect : .onConnected ∈ cs → s.base.ec = none)
    (hclosed : (notifications t.log).head?.map Prod.snd = some .chatting ↔
      (notifications s.log).head?.map Prod.snd = some .chatting) : WayOut t := by
  have hcancels : cancels t.log = cancels s.log := by
    rw [cancels_of_calls _ _ hstep.calls_eq,List.count_eq_zero.mpr fun hmem => (hcs _ hmem).1 rfl,Nat.add_zero]
  have hstops : queueStops t.log = queueStops s.log := by
    rw [queueStops_of_calls _ _ hstep.calls_eq,List.count_eq_zero.mpr fun hmem => (hcs _ hmem).2.1 rfl,
      Nat.add_zero]
  have hcloses : closes t.log = closes s.log := by
    rw [closes_of_calls _ _ hstep.calls_eq,List.countP_eq_zero.mpr fun c hc => by rw [(hcs c hc).2.2]; decide,
      Nat.add_zero]
  refine ⟨by rw [hcancels,hstops,hcloses,h.stops],by rw [hcancels,hcloses]; exact h.once,?_,?_,?_⟩
  · intro hnone
    rw [hcancels,hcloses]
    exact h.clean (hec hnone)
  · intro hpos
    rw [hcancels] at hpos
    have hconnects := connects_of_calls _ _ hstep.calls_eq
    rw [h.cancelled hpos] at hconnects
    by_cases hmem : .onConnected ∈ cs
    · have hzero := (h.clean (hconnect hmem)).1
      omega
    · rwa [List.count_eq_zero.mpr hmem] at hconnects
  · rw [hcloses,h.closed,hclosed]

/-- The first notification, which calls for at most one way out. -/
theorem WayOut.first {s t : State} {cs : List Call} (h : WayOut s) (hstep : Step s t cs) (he : s.base.ec = none)
    (hec : t.base.ec ≠ none) (hstops : cs.count .txqueueStop = cs.count .cancelLowestLayer + cs.countP Call.isClose)
    (hone : cs.count .cancelLowestLayer + cs.countP Call.isClose ≤ 1)
    (hcancelled : 0 < cs.count .cancelLowestLayer → connects t.log = 0)
    (hclosed : 0 < cs.countP Call.isClose ↔ (notifications t.log).head?.map Prod.snd = some .chatting) :
    WayOut t := by
  have hcancels := cancels_of_calls _ _ hstep.calls_eq
  have hcloses := closes_of_calls _ _ hstep.calls_eq
  have hqueue := queueStops_of_calls _ _ hstep.calls_eq
  obtain ⟨hzero₁,hzero₂⟩ := h.clean he
  have hold := h.stops
  refine ⟨by omega,by omega,fun hnone => absurd hnone hec,fun hpos => hcancelled (by omega),?_⟩
  rw [hcloses,hzero₂,Nat.zero_add]
  exact hclosed

theorem wayOut_step {s t : State} {cs : List Call} (hreg : Regular s) (h : WayOut s) (hstep : Step s t cs) :
    WayOut t := by
  have ⟨hstage,hec,hout,_⟩ := hreg
  cases hstep with
  | again nec he =>
    have hne : notifications s.log ≠ [] := by
      intro hnil
      simp [hec,hnil] at he
    refine h.aside (Step.again nec he) (by simp) id (by simp) ?_
    simp [List.head?_append_of_ne_nil _ hne]
  | aside nec he hs =>
    have hnone : notifications s.log = [] := by simpa [he] using hec.symm
    refine h.aside (Step.aside nec he hs) (by simp) (by simp [he]) (by simp) ?_
    rcases hs with hs | hs <;> simp [hnone,hs]
  | cancels nec he hs =>
    have hnone : notifications s.log = [] := by simpa [he] using hec.symm
    have hzero : connects s.log = 0 := by
      -- The chat is handshaking, so `run_state` has not been resumed.
      unfold Outcome at hout
      cases hr : s.run <;> simp_all [Run.stage]
    refine h.first (Step.cancels nec he hs) he (by simp) (by decide) (by decide) (fun _ => ?_) (by simp [hnone])
    simpa [connects] using hzero
  | closes nec he hs =>
    have hnone : notifications s.log = [] := by simpa [he] using hec.symm
    exact h.first (Step.closes nec he hs) he (by simp) (by simp) (by simp) (by simp) (by simp [hnone])
  | connected hr he => exact h.aside (Step.connected hr he) (by simp) (fun _ => he) (fun _ => he) (by simp)
  | start hr => exact h.aside (Step.start hr) (by simp) id (by simp) (by simp)
  | acceptCompletes st => exact h.aside (Step.acceptCompletes st) (by simp) id (by simp) (by simp)
  | acceptThrows result e hr he => exact h.aside (Step.acceptThrows result e hr he) (by simp) id (by simp) (by simp)
  | readCompletes st => exact h.aside (Step.readCompletes st) (by simp) id (by simp) (by simp)
  | received rxbuffer bytes hr => exact h.aside (Step.received rxbuffer bytes hr) (by simp) id (by simp) (by simp)
  | readEnds rxbuffer hr => exact h.aside (Step.readEnds rxbuffer hr) (by simp) id (by simp) (by simp)
  | closeCompletes => exact h.aside Step.closeCompletes (by simp) id (by simp) (by simp)

/-- Every message read is passed on once, whole and in order. -/
structure Relay (s : State) : Prop where
  messages : messages s.log = (reads s.log).map String.ofList
  buffer : ∀ rxbuffer, s.run = .receiving rxbuffer → rxbuffer = []

theorem relay_step {s t : State} {cs : List Call} (h : Relay s) (hstep : Step s t cs) : Relay t := by
  have hmessages := messages_of_calls _ _ hstep.calls_eq
  rw [h.messages] at hmessages
  cases hstep with
  | received rxbuffer bytes hr =>
    obtain rfl := h.buffer rxbuffer hr
    refine ⟨by simpa [List.filterMap_cons] using hmessages,?_⟩
    rintro rest ⟨rfl⟩
    simp
  | connected hr he =>
    refine ⟨by simpa [List.filterMap_cons] using hmessages,?_⟩
    rintro rest ⟨rfl⟩
    rfl
  | start hr => exact ⟨by simpa [List.filterMap_cons] using hmessages,by simp⟩
  | acceptThrows result e hr he => exact ⟨by simpa [List.filterMap_cons] using hmessages,by simp⟩
  | readEnds rxbuffer hr => exact ⟨by simpa [List.filterMap_cons] using hmessages,by simp⟩
  | _ => exact ⟨by simpa [List.filterMap_cons] using hmessages,h.buffer⟩

theorem reachable_invariant {I : State → Prop} (hinit : I State.init)
    (hstep : ∀ s t cs, machine.Reachable s → I s → Step s t cs → I t) {s : State} (h : machine.Reachable s) :
    I s := by
  refine h.invariant_reachable ?_ ?_
  · rintro s rfl
    exact hinit
  · intro s a t hr hi ha
    obtain ⟨⟨u,cs⟩,hs,rfl⟩ := Option.map_eq_some_iff.mp ha
    exact hstep s u cs hr hi (step_cases hs)

theorem reachable_regular {s : State} (h : machine.Reachable s) : Regular s :=
  reachable_invariant regular_init (fun _ _ _ _ hi hstep => regular_step hi hstep) h

theorem reachable_wayOut {s : State} (h : machine.Reachable s) : WayOut s :=
  reachable_invariant ⟨rfl,by decide,fun _ => ⟨rfl,rfl⟩,fun _ => rfl,by decide⟩
    (fun _ _ _ hr hi hstep => wayOut_step (reachable_regular hr) hi hstep) h

theorem reachable_relay {s : State} (h : machine.Reachable s) : Relay s :=
  reachable_invariant ⟨rfl,by simp [State.init]⟩ (fun _ _ _ _ hi hstep => relay_step hi hstep) h

def HandshakeLost (log : List Event) : Prop :=
  Chronicle (fun before e => e = .accepted none → notifications before ≠ []) log

/-- `on_connected` is called if and only if the handshake succeeded before the first notification. -/
def Decided (s : State) : Prop := HandshakeLost s.log ↔ connects s.log = 0

theorem decided_step {s t : State} {cs : List Call} (hreg : Regular s) (h : Decided s) (hstep : Step s t cs) :
    Decided t := by
  have ⟨_,hec,hout,_⟩ := hreg
  have hconnects := connects_of_calls _ _ hstep.calls_eq
  unfold Decided HandshakeLost at *
  cases hstep with
  | connected hr he =>
    have hnone : notifications s.log = [] := by simpa [he] using hec.symm
    rw [hconnects]
    simp only [Chronicle.snoc_iff]
    simp [hnone]
  | acceptThrows result e hr he =>
    rw [hconnects]
    simp only [Chronicle.snoc_iff,h,List.count_nil,Nat.add_zero,and_iff_left_iff_imp,Event.accepted.injEq]
    rintro - rfl hnil
    have hsome : s.base.ec = some e := by simpa using he
    simp [hec,hnil] at hsome
  | acceptCompletes st => exact h
  | readCompletes st => exact h
  | readEnds rxbuffer hr => exact h
  | closeCompletes => exact h
  | _ =>
    rw [hconnects]
    simp only [Chronicle.snoc_iff]
    simpa using h

theorem reachable_decided {s : State} (h : machine.Reachable s) : Decided s :=
  reachable_invariant (iff_of_true Chronicle.nil rfl)
    (fun _ _ _ hr hi hstep => decided_step (reachable_regular hr) hi hstep) h

/-- `on_connected` is called at most once and never after a notification. A handshake that completes
after a notification ends `run_state` by throwing. There is at most one way out, `async_close` only if
the first notification found the chat running, and `ec` keeps the first error. -/
def OneShot (s : State) : Prop :=
  connects s.log ≤ 1 ∧
  (∀ before after, s.log = before ++ .called .onConnected :: after → notifications before = []) ∧
  (∀ before r after, s.log = before ++ .accepted r :: after → notifications before ≠ [] →
    s.base.state = .exitState ∧ ∃ e, s.run = .threw e ∧ (r = some e ∨ (r = none ∧ s.base.ec = some e))) ∧
  cancels s.log + closes s.log ≤ 1 ∧
  (0 < closes s.log → (notifications s.log).head?.map Prod.snd = some .chatting) ∧
  s.base.ec = (notifications s.log).head?.map Prod.fst

/-- A handshake that completes after a notification does not connect. -/
theorem Regular.connects_eq_zero {s : State} (h : Regular s) {before after : List Event} {r : ErrorCode}
    (hlog : s.log = before ++ .accepted r :: after) (hnot : notifications before ≠ []) :
    connects s.log = 0 := by
  have hbefore : connects before = 0 := (h.order before _ after hlog).2 ⟨r,rfl⟩
  have hafter : connects after = 0 := by
    refine List.count_eq_zero.mpr fun hmem => ?_
    obtain ⟨e,he,hcalled⟩ := List.mem_filterMap.mp hmem
    obtain ⟨l,k,rfl⟩ := List.append_of_mem he
    have heq : e = .called .onConnected := by
      cases e <;> simp_all
    have hnil := (h.order (before ++ .accepted r :: l) e k (by simp [hlog])).1 heq
    simp [hnot] at hnil
  have hsplit : calls s.log = calls before ++ calls after := by simp [hlog]
  rw [connects_of_calls _ _ hsplit,hbefore,Nat.zero_add]
  exact hafter

theorem error_notified_once {s : State} (h : machine.Reachable s) : OneShot s := by
  have hreg := reachable_regular h
  have hway := reachable_wayOut h
  refine ⟨hreg.connects_le_one,fun before after hlog => (hreg.order before _ after hlog).1 rfl,?_,hway.once,
    hway.closed.mp,hreg.ec⟩
  intro before r after hlog hnot
  have hzero := hreg.connects_eq_zero hlog hnot
  have hmem : r ∈ accepts s.log := by simp [hlog]
  have hout := hreg.outcome
  have hstage := hreg.stage
  unfold Outcome at hout
  split at hout
  · simp [hout.1] at hmem
  · simp [hout.1] at hmem
  · omega
  · omega
  · next e hrun =>
    obtain ⟨-,r',haccepts,hcause⟩ := hout
    obtain rfl : r = r' := by simpa [haccepts] using hmem
    rw [hrun] at hstage
    exact ⟨hstage,e,hrun,hcause⟩

/-- The handshake has succeeded when `stop` comes, but its completion is still queued. -/
def stopAgainstAccept : List Action := [.start,.acceptCompletes none,.notify .operationAborted,.resumeAccept]

theorem error_notified_once_stopAgainstAccept :
    ∃ s, machine.replay State.init stopAgainstAccept = some s ∧ s.run = .threw .operationAborted ∧ OneShot s := by
  refine ⟨_,rfl,rfl,?_⟩
  have hrun : machine.replay State.init stopAgainstAccept = some _ := rfl
  exact error_notified_once (Machine.Reachable.of_replay rfl hrun)

end ChatState
end BeastWebsocketEcho
