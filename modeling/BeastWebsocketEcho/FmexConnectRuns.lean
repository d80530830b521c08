import BeastWebsocketEcho.FmexConnect
import BeastWebsocketEcho.Chronicle

/-!
# Stopping the exchange client while it connects

As long as no `stop` has run, the callback that cancels the outstanding step is registered. A
`stop` forgets it and makes the step fail, unless the step has succeeded and its completion
is queued; then the operation goes on as if nothing had happened.
-/

namespace BeastWebsocketEcho
namespace FmexConnect

/-- Events that only a connection whose transport came up can log. -/
def Event.succeeds : Event → Bool
  | .connectHandler none | .transportUp | .enteredReadState => true
  | _ => false

/-- The step can only fail. -/
def failing : Status ErrorCode → Bool
  | .pending => false
  | .cancelled => true
  | .done ec => ec.isSome

/-- A `stop` ran after the operation was started and before the transport came up. -/
def Caught (log : List Event) : Prop :=
  ∃ before between after, log = before ++ .started :: (between ++ .stopped :: after) ∧
    ∀ e ∈ between, e.succeeds = false

def Down (log : List Event) : Prop := ∀ e ∈ log, e.succeeds = false

/-- What a `stop` that catches the connection does to it: it does not come up, and its connect handler is
called with an error, or waits for a step that can only fail. -/
def Obeyed (s : State) : Prop :=
  Caught s.log → Down s.log ∧
    ((∃ op, s.op = some op ∧ failing op.status = true) ∨ ∃ e, .connectHandler (some e) ∈ s.log)

/-- No `stop` runs while a step has succeeded and its completion is queued. -/
def uncrossed (s : State) : Action → Bool
  | .runTask i => !(s.tasks[i]? == some .notifyAll && s.op.any fun op => op.status == .done none)
  | _ => true

def armedWith : Stage → UInt64 × Callback
  | .resolve => (1,.cancelResolver)
  | _ => (2,.cancelStream)

structure Armed (s : State) (op : Op) : Prop where
  outstanding : s.op = some op
  register : s.register = ⟨(armedWith op.stage).1,[armedWith op.stage]⟩
  token : op.token = ⟨(armedWith op.stage).1,true⟩
  caught : ¬ Caught s.log

structure Failing (s : State) : Prop where
  down : Down s.log
  outstanding : (∃ op, s.op = some op ∧ failing op.status = true) ∨
    s.op = none ∧ ∃ e, .connectHandler (some e) ∈ s.log

/-- The transport came up, and no `stop` was in its way. -/
structure Up (s : State) : Prop where
  outstanding : s.op = none
  caught : ¬ Caught s.log
  up : ∃ before e after, s.log = before ++ e :: after ∧ e.succeeds = true ∧ .started ∉ after

structure Idle (s : State) : Prop where
  outstanding : s.op = none
  register : s.register = StopRegister.empty
  started : .started ∉ s.log

inductive Phase (s : State) : Prop
  | idle (h : Idle s) (down : Down s.log)
  | armed (op : Op) (h : Armed s op) (down : Down s.log) (started : .started ∈ s.log)
  | failing (h : Failing s) (started : .started ∈ s.log)
  | up (h : Up s) (started : .started ∈ s.log)

def StartsOnce (s : State) : Prop :=
  s.tasks.count .handleConnectCommand + (if .started ∈ s.log then 1 else 0) ≤ if s.startCalled then 1 else 0

section Logs

variable {log : List Event} {e : Event}

theorem caught_snoc (h : Caught (log ++ [e])) :
    Caught log ∨ e = .stopped ∧ ∃ before after, log = before ++ .started :: after ∧ Down after := by
  obtain ⟨before,between,after,heq,hdown⟩ := h
  rcases List.eq_nil_or_concat after with rfl | ⟨init,last,rfl⟩
  · have hsplit : log ++ [e] = (before ++ .started :: between) ++ [Event.stopped] := by simpa using heq
    obtain ⟨rfl,hlast⟩ := List.append_inj' hsplit rfl
    exact Or.inr ⟨by simpa using hlast,before,between,rfl,hdown⟩
  · have hsplit : log ++ [e] = (before ++ .started :: (between ++ .stopped :: init)) ++ [last] := by
      simpa using heq
    obtain ⟨rfl,-⟩ := List.append_inj' hsplit rfl
    exact Or.inl ⟨before,between,init,rfl,hdown⟩

theorem not_caught_snoc (h : ¬ Caught log) (he : e ≠ .stopped) : ¬ Caught (log ++ [e]) := by
  intro hcaught
  rcases caught_snoc hcaught with hc | ⟨heq,-⟩
  · exact h hc
  · exact he heq

theorem not_caught_append (h : ¬ Caught log) (k : List Event) (hk : ∀ e ∈ k, e ≠ .stopped) : ¬ Caught (log ++ k) :=
  append_induction (P := fun l => ¬ Caught l) h k fun _ e he hl => not_caught_snoc hl (hk e he)

theorem Caught.started (h : Caught log) : .started ∈ log := by
  obtain ⟨before,between,after,rfl,-⟩ := h
  simp

theorem down_append {k : List Event} : Down (log ++ k) ↔ Down log ∧ Down k := by
  simp [Down,or_imp,forall_and]

end Logs

@[simp] theorem drop_log (s : State) (t : StopToken) : (s.drop t).log = s.log := by unfold State.drop; split <;> rfl
@[simp] theorem drop_op (s : State) (t : StopToken) : (s.drop t).op = s.op := by unfold State.drop; split <;> rfl
@[simp] theorem drop_tasks (s : State) (t : StopToken) : (s.drop t).tasks = s.tasks := by
  unfold State.drop; split <;> rfl
@[simp] theorem drop_startCalled (s : State) (t : StopToken) : (s.drop t).startCalled = s.startCalled := by
  unfold State.drop; split <;> rfl

def handled : ErrorCode → List Event
  | some e => [.connectHandler (some e),.onError e]
  | none => [.connectHandler none,.transportUp,.enteredReadState]

theorem complete_log (s : State) (op : Op) (ec : ErrorCode) : (s.complete op ec).log = s.log ++ handled ec := by
  cases ec <;> simp [State.complete,State.handler,State.emit,handled]

@[simp] theorem complete_op (s : State) (op : Op) (ec : ErrorCode) : (s.complete op ec).op = none := by
  simp [State.complete]

theorem complete_failing {s : State} (h : Down s.log) (op : Op) (e : Error) : Failing (s.complete op (some e)) := by
  refine ⟨?_,Or.inr ⟨complete_op s op _,e,?_⟩⟩
  · rw [complete_log,down_append]
    exact ⟨h,by simp [handled,Down,Event.succeeds]⟩
  · simp [complete_log,handled]

theorem complete_up {s : State} (h : ¬ Caught s.log) (op : Op) : Up (s.complete op none) := by
  refine ⟨complete_op s op _,?_,?_⟩
  · rw [complete_log]
    exact not_caught_append h _ (by simp [handled])
  · exact ⟨s.log,_,_,complete_log s op none,rfl,by simp⟩

/-- A `stop` that runs when the transport is up catches nothing. -/
theorem Up.not_caught_snoc {s : State} (h : Up s) (e : Event) : ¬ Caught (s.log ++ [e]) := by
  intro hcaught
  rcases caught_snoc hcaught with hc | ⟨-,before,after,heq,hdown⟩
  · exact h.caught hc
  · obtain ⟨before',e',after',heq',hsucceeds,hstarted⟩ := h.up
    rw [heq] at heq'
    rcases List.append_eq_append_iff.mp heq' with ⟨between,-,hb⟩ | ⟨between,-,hb⟩
    · cases between with
      | nil =>
        obtain ⟨rfl,-⟩ := List.cons.inj hb
        simp [Event.succeeds] at hsucceeds
      | cons x xs =>
        obtain ⟨-,rfl⟩ := List.cons.inj hb
        rw [hdown e' (by simp)] at hsucceeds
        simp at hsucceeds
    · cases between with
      | nil =>
        obtain ⟨rfl,-⟩ := List.cons.inj hb
        simp [Event.succeeds] at hsucceeds
      | cons x xs =>
        obtain ⟨-,rfl⟩ := List.cons.inj hb
        exact hstarted (by simp)

theorem Up.emit {s t : State} (h : Up s) (e : Event) (he : e ≠ .started) (hlog : t.log = s.log ++ [e])
    (hop : t.op = none) : Up t := by
  refine ⟨hop,hlog ▸ h.not_caught_snoc e,?_⟩
  obtain ⟨before,e',after,heq,hsucceeds,hstarted⟩ := h.up
  refine ⟨before,e',after ++ [e],by rw [hlog,heq]; simp,hsucceeds,?_⟩
  simp [hstarted,Ne.symm he]

section Callbacks

variable {s : State}

theorem failing_cancel {status : Status ErrorCode} (h : status ≠ .done none) : failing status.cancel = true := by
  cases status with
  | pending => rfl
  | cancelled => rfl
  | done ec =>
    cases ec with
    | none => exact absurd rfl h
    | some e => rfl

theorem runCallback_some {op : Op} (hop : s.op = some op) {c : Callback} (hc : c ≠ .initiateClose) :
    s.runCallback c =
      { s with op := some (if c.cancels op.stage then { op with status := op.status.cancel } else op) } := by
  cases c with
  | initiateClose => exact absurd rfl hc
  | cancelResolver => simp [State.runCallback,hop]
  | cancelStream => simp [State.runCallback,hop]

theorem runCallback_none (hop : s.op = none) {c : Callback} (hc : c ≠ .initiateClose) :
    s.runCallback c = s.emit (.dangling c) := by
  cases c with
  | initiateClose => exact absurd rfl hc
  | cancelResolver => simp [State.runCallback,hop]
  | cancelStream => simp [State.runCallback,hop]

theorem Failing.emit (h : Failing s) {e : Event} (he : e.succeeds = false) : Failing (s.emit e) := by
  refine ⟨down_append.mpr ⟨h.down,by simpa [Down] using he⟩,?_⟩
  rcases h.outstanding with hop | ⟨hop,e',he'⟩
  · exact Or.inl hop
  · exact Or.inr ⟨hop,e',List.mem_append_left _ he'⟩

theorem failing_runCallback (h : Failing s) (c : Callback) : Failing (s.runCallback c) := by
  by_cases hc : c = .initiateClose
  · subst hc
    exact h.emit (e := .closeInitiated) rfl
  · rcases h.outstanding with ⟨op,hop,hfail⟩ | ⟨hop,-⟩
    · have hcancel : failing op.status.cancel = true := by
        refine failing_cancel ?_
        rintro heq
        simp [heq,failing] at hfail
      rw [runCallback_some hop hc]
      refine ⟨h.down,Or.inl ⟨_,rfl,?_⟩⟩
      split
      · exact hcancel
      · exact hfail
    · rw [runCallback_none hop hc]
      exact h.emit rfl

theorem up_runCallback (h : Up s) (c : Callback) : Up (s.runCallback c) := by
  by_cases hc : c = .initiateClose
  · subst hc
    exact h.emit .closeInitiated (by simp) rfl h.outstanding
  · rw [runCallback_none h.outstanding hc]
    exact h.emit (.dangling c) (by simp) rfl h.outstanding

/-- What one callback keeps, the whole notification keeps. -/
theorem foldl_runCallback {P : State → Prop} (hP : ∀ s c, P s → P (s.runCallback c)) (cs : List Callback) (h : P s) :
    P (cs.foldl State.runCallback s) := by
  induction cs generalizing s with
  | nil => exact h
  | cons c cs ih => exact ih (hP s c h)

end Callbacks

theorem phase_handleConnectCommand {s : State} (h : Idle s) (hdown : Down s.log) : Phase s.handleConnectCommand := by
  have hcaught : ¬ Caught s.log := fun hc => h.started hc.started
  refine Phase.armed ⟨.resolve,.pending,⟨1,true⟩⟩ ⟨?_,?_,rfl,?_⟩ ?_ ?_
  · simp [State.handleConnectCommand,State.initiate,State.emit,h.register,StopRegister.add,StopRegister.empty]
  · simp [State.handleConnectCommand,State.initiate,State.emit,h.register,StopRegister.add,StopRegister.empty,
      armedWith,emplace]
  · exact not_caught_snoc (not_caught_snoc hcaught (by simp)) (by simp)
  · change Down (s.log ++ [Event.started] ++ [Event.initiated .resolve])
    rw [down_append,down_append]
    exact ⟨⟨hdown,by simp [Down,Event.succeeds]⟩,by simp [Down,Event.succeeds]⟩
  · change Event.started ∈ s.log ++ [Event.started] ++ [Event.initiated .resolve]
    simp

theorem armed_initiate {s : State} (hcaught : ¬ Caught s.log) {stage : Stage} (hstage : stage ≠ .resolve)
    (hregister : s.register = ⟨2,[(2,.cancelStream)]⟩) :
    Armed (s.initiate stage ⟨2,true⟩) ⟨stage,.pending,⟨2,true⟩⟩ := by
  have harmed : armedWith stage = (2,.cancelStream) := by
    cases stage with
    | resolve => exact absurd rfl hstage
    | _ => rfl
  refine ⟨rfl,?_,by simp [harmed],not_caught_snoc hcaught (by simp)⟩
  rw [harmed]
  exact hregister

theorem phase_resume {s : State} {op : Op} {ec : ErrorCode} (h : Armed s op) (hdown : Down s.log)
    (hstarted : .started ∈ s.log) (hostName : Option ErrorCode) : Phase (s.resume op ec hostName) := by
  have hcomplete : ∀ (t : State) (op : Op) (ec : ErrorCode), t.log = s.log → Phase (t.complete op ec) := by
    intro t op ec hlog
    have hmem : .started ∈ (t.complete op ec).log := by
      rw [complete_log,hlog]
      exact List.mem_append_left _ hstarted
    cases ec with
    | none => exact Phase.up (complete_up (hlog ▸ h.caught) op) hmem
    | some e => exact Phase.failing (complete_failing (hlog ▸ hdown) op e) hmem
  have hnext : ∀ (t : State) (stage : Stage), t.log = s.log → stage ≠ .resolve →
      t.register = ⟨2,[(2,.cancelStream)]⟩ → Phase (t.initiate stage ⟨2,true⟩) := by
    intro t stage hlog hstage hregister
    have hlog' : (t.initiate stage ⟨2,true⟩).log = s.log ++ [Event.initiated stage] := by
      rw [← hlog]
      rfl
    refine Phase.armed _ (armed_initiate (hlog ▸ h.caught) hstage hregister) ?_ ?_
    · rw [hlog',down_append]
      exact ⟨hdown,by simp [Down,Event.succeeds]⟩
    · rw [hlog']
      exact List.mem_append_left _ hstarted
  have hregister := h.register
  have htoken := h.token
  cases ec with
  | some e => exact hcomplete s op (some e) rfl
  | none =>
    cases hstage : op.stage with
    | resolve =>
      rw [hstage] at hregister htoken
      have hadded : (s.register.add .cancelStream).1 = ⟨2,true⟩ := by simp [hregister,armedWith,StopRegister.add]
      simp only [State.resume,hstage,hadded]
      refine hnext _ .connect ?_ (by simp) ?_
      · simp
      · simp [State.drop,hregister,htoken,armedWith,StopRegister.add,StopRegister.remove,emplace,eraseKey]
    | connect =>
      rw [hstage] at hregister htoken
      cases hostName with
      | some code => simpa only [State.resume,hstage] using hcomplete s op code rfl
      | none => simpa only [State.resume,hstage,htoken,armedWith] using hnext s .tlsHandshake rfl (by simp) hregister
    | tlsHandshake =>
      rw [hstage] at hregister htoken
      simpa only [State.resume,hstage,htoken,armedWith] using hnext s .websocketHandshake rfl (by simp) hregister
    | websocketHandshake =>
      simp only [State.resume,hstage]
      exact hcomplete (s.drop op.token) _ none (drop_log s op.token)

/-- Only `start` and the task that it leaves touch these. -/
structure SameStart (s t : State) : Prop where
  tasks : t.tasks = s.tasks
  startCalled : t.startCalled = s.startCalled
  started : .started ∈ t.log ↔ .started ∈ s.log

theorem SameStart.trans {s t u : State} (h : SameStart s t) (h' : SameStart t u) : SameStart s u :=
  ⟨h'.tasks.trans h.tasks,h'.startCalled.trans h.startCalled,h'.started.trans h.started⟩

theorem sameStart_emit {s t : State} {e : Event} (he : e ≠ .started) (hlog : t.log = s.log ++ [e])
    (hsame : (t.tasks,t.startCalled) = (s.tasks,s.startCalled)) : SameStart s t := by
  simp only [Prod.mk.injEq] at hsame
  refine ⟨hsame.1,hsame.2,?_⟩
  rw [hlog]
  simp [Ne.symm he]

theorem sameStart_runCallback (s : State) (c : Callback) : SameStart s (s.runCallback c) := by
  by_cases hc : c = .initiateClose
  · subst hc
    exact sameStart_emit (e := .closeInitiated) (by simp) rfl rfl
  · cases hop : s.op with
    | some op =>
      rw [runCallback_some hop hc]
      exact ⟨rfl,rfl,Iff.rfl⟩
    | none =>
      rw [runCallback_none hop hc]
      exact sameStart_emit (e := .dangling c) (by simp) rfl rfl

theorem sameStart_notifyAll (s : State) : SameStart s s.notifyAll := by
  have hstopped : SameStart s ({ s with register := s.register.takeAll.2 }.emit .stopped) :=
    sameStart_emit (e := .stopped) (by simp) rfl rfl
  exact foldl_runCallback (P := SameStart s) (fun t c ht => ht.trans (sameStart_runCallback t c)) _ hstopped

theorem sameStart_complete (s : State) (op : Op) (ec : ErrorCode) : SameStart s (s.complete op ec) := by
  refine ⟨?_,?_,?_⟩
  · cases ec <;> simp [State.complete,State.handler,State.emit]
  · cases ec <;> simp [State.complete,State.handler,State.emit]
  · rw [complete_log]
    cases ec <;> simp [handled]

theorem sameStart_initiate (s : State) (stage : Stage) (token : StopToken) : SameStart s (s.initiate stage token) :=
  sameStart_emit (e := .initiated stage) (by simp) rfl rfl

theorem sameStart_drop (s : State) (t : StopToken) : SameStart s (s.drop t) := ⟨by simp,by simp,by simp⟩

theorem sameStart_resume (s : State) (op : Op) (ec : ErrorCode) (hostName : Option ErrorCode) :
    SameStart s (s.resume op ec hostName) := by
  cases ec with
  | some e => exact sameStart_complete s op (some e)
  | none =>
    cases hstage : op.stage with
    | resolve =>
      simp only [State.resume,hstage]
      have hadd : SameStart s { s with register := (s.register.add .cancelStream).2 } := ⟨rfl,rfl,Iff.rfl⟩
      exact (hadd.trans (sameStart_drop _ _)).trans (sameStart_initiate _ _ _)
    | connect =>
      cases hostName with
      | some code => simpa only [State.resume,hstage] using sameStart_complete s op code
      | none => simpa only [State.resume,hstage] using sameStart_initiate s .tlsHandshake op.token
    | tlsHandshake => simpa only [State.resume,hstage] using sameStart_initiate s .websocketHandshake op.token
    | websocketHandshake =>
      simp only [State.resume,hstage]
      exact (sameStart_drop s op.token).trans (sameStart_complete _ _ _)

theorem StartsOnce.same {s t : State} (h : StartsOnce s) (hst : SameStart s t) : StartsOnce t := by
  unfold StartsOnce at h ⊢
  simp only [hst.tasks,hst.startCalled,hst.started]
  exact h

theorem count_eraseIdx {s : State} {i : ℕ} {task : Task} (hi : s.tasks[i]? = some task) :
    s.tasks.count .handleConnectCommand =
      (s.tasks.eraseIdx i).count .handleConnectCommand + if task = .handleConnectCommand then 1 else 0 := by
  obtain ⟨hlt,rfl⟩ := List.getElem?_eq_some_iff.mp hi
  have hcount := (List.getElem_cons_eraseIdx_perm hlt).count_eq Task.handleConnectCommand
  rw [← hcount,List.count_cons]
  simp

theorem phase_notifyAll {s : State} (h : Phase s) (hok : ∀ op, s.op = some op → op.status ≠ .done none) :
    Phase s.notifyAll := by
  have hstarted : .started ∈ s.log → .started ∈ s.notifyAll.log := (sameStart_notifyAll s).started.mpr
  cases h with
  | idle h hdown =>
    have hnone : s.notifyAll = { s with register := s.register.takeAll.2 }.emit .stopped := by
      simp [State.notifyAll,h.register,StopRegister.takeAll,StopRegister.empty]
    rw [hnone]
    refine Phase.idle ⟨h.outstanding,?_,?_⟩ ?_
    · simp [State.emit,h.register,StopRegister.takeAll,StopRegister.empty]
    · simpa [State.emit] using h.started
    · change Down (s.log ++ [Event.stopped])
      rw [down_append]
      exact ⟨hdown,by simp [Down,Event.succeeds]⟩
  | armed op h hdown hlog =>
    refine Phase.failing ?_ (hstarted hlog)
    have hcancels : (armedWith op.stage).2.cancels op.stage = true := by cases op.stage <;> rfl
    have hcallback : (armedWith op.stage).2 ≠ .initiateClose := by cases op.stage <;> simp [armedWith]
    have hone : s.notifyAll =
        ({ s with register := s.register.takeAll.2 }.emit .stopped).runCallback (armedWith op.stage).2 := by
      simp [State.notifyAll,h.register,StopRegister.takeAll]
    generalize hu : ({ s with register := s.register.takeAll.2 } : State).emit .stopped = u at hone
    have hop : u.op = some op := by
      rw [← hu]
      exact h.outstanding
    have hdown' : Down u.log := by
      rw [← hu]
      exact down_append.mpr ⟨hdown,by simp [Down,Event.succeeds]⟩
    rw [hone,runCallback_some hop hcallback,if_pos hcancels]
    exact ⟨hdown',Or.inl ⟨_,rfl,failing_cancel (hok op h.outstanding)⟩⟩
  | failing h hlog =>
    refine Phase.failing ?_ (hstarted hlog)
    have hstopped : Failing ({ s with register := s.register.takeAll.2 }.emit .stopped) :=
      Failing.emit (s := { s with register := s.register.takeAll.2 }) ⟨h.down,h.outstanding⟩ rfl
    exact foldl_runCallback (P := Failing) (fun t c ht => failing_runCallback ht c) _ hstopped
  | up h hlog =>
    refine Phase.up ?_ (hstarted hlog)
    have hstopped : Up ({ s with register := s.register.takeAll.2 }.emit .stopped) :=
      h.emit .stopped (by simp) rfl h.outstanding
    exact foldl_runCallback (P := Up) (fun t c ht => up_runCallback ht c) _ hstopped

theorem Phase.tasks {s : State} (h : Phase s) (tasks : List Task) (startCalled : Bool) :
    Phase { s with tasks := tasks, startCalled := startCalled } := by
  cases h with
  | idle h hdown => exact Phase.idle ⟨h.outstanding,h.register,h.started⟩ hdown
  | armed op h hdown hlog => exact Phase.armed op ⟨h.outstanding,h.register,h.token,h.caught⟩ hdown hlog
  | failing h hlog => exact Phase.failing ⟨h.down,h.outstanding⟩ hlog
  | up h hlog => exact Phase.up ⟨h.outstanding,h.caught,h.up⟩ hlog

theorem Phase.obeyed {s : State} (h : Phase s) : Obeyed s := by
  intro hcaught
  cases h with
  | idle h hdown => exact absurd hcaught.started h.started
  | armed op h hdown hlog => exact absurd hcaught h.caught
  | failing h hlog =>
    refine ⟨h.down,?_⟩
    rcases h.outstanding with hop | ⟨-,he⟩
    · exact Or.inl hop
    · exact Or.inr he
  | up h hlog => exact absurd hcaught h.caught

theorem phase_runTask {s : State} {i : ℕ} {task : Task} (h : Phase s) (hstarts : StartsOnce s)
    (hok : uncrossed s (.runTask i) = true) (hi : s.tasks[i]? = some task) :
    Phase ({ s with tasks := s.tasks.eraseIdx i }.runTask task) ∧
      StartsOnce ({ s with tasks := s.tasks.eraseIdx i }.runTask task) := by
  have hcount := count_eraseIdx hi
  cases task with
  | handleConnectCommand =>
    have hstarted : .started ∉ s.log := by
      intro hmem
      simp only [StartsOnce,hcount,hmem,if_pos] at hstarts
      split at hstarts <;> omega
    have hidle : Idle s ∧ Down s.log := by
      cases h with
      | idle h hdown => exact ⟨h,hdown⟩
      | armed op h hdown hlog => exact absurd hlog hstarted
      | failing h hlog => exact absurd hlog hstarted
      | up h hlog => exact absurd hlog hstarted
    refine ⟨phase_handleConnectCommand ⟨hidle.1.outstanding,hidle.1.register,hidle.1.started⟩ hidle.2,?_⟩
    simp only [StartsOnce,hcount,hstarted,if_pos,if_false] at hstarts
    simpa [StartsOnce,State.runTask,State.handleConnectCommand,State.initiate,State.emit] using hstarts
  | notifyAll =>
    refine ⟨phase_notifyAll (h.tasks _ s.startCalled) ?_,?_⟩
    · rintro op hop hdone
      simp [uncrossed,hi,show s.op = some op from hop,hdone] at hok
    · refine StartsOnce.same ?_ (sameStart_notifyAll _)
      simpa [StartsOnce,hcount] using hstarts

theorem phase_completes {s t : State} {ec : ErrorCode} (h : Phase s) (hstarts : StartsOnce s)
    (hstep : step s (.completes ec) = some t) : Phase t ∧ StartsOnce t := by
  obtain ⟨op,hop,hmap⟩ := Option.bind_eq_some_iff.mp hstep
  obtain ⟨status,hstatus,rfl⟩ := Option.map_eq_some_iff.mp hmap
  obtain ⟨rfl,hcase⟩ := Status.complete_cases hstatus
  refine ⟨?_,hstarts⟩
  cases h with
  | idle h hdown => simp [h.outstanding] at hop
  | up h hlog => simp [h.outstanding] at hop
  | armed op' h hdown hlog =>
    obtain rfl : op = op' := by simpa [hop] using h.outstanding
    exact Phase.armed _ ⟨rfl,h.register,h.token,h.caught⟩ hdown hlog
  | failing h hlog =>
    refine Phase.failing ⟨h.down,Or.inl ⟨_,rfl,?_⟩⟩ hlog
    rcases h.outstanding with ⟨op',hop',hfail⟩ | ⟨hnone,-⟩
    · obtain rfl : op = op' := by simpa [hop] using hop'
      rcases hcase with hpending | ⟨-,hfailed⟩
      · simp [hpending,failing] at hfail
      · exact hfailed
    · simp [hnone] at hop

theorem phase_resumed {s t : State} {hostName : Option ErrorCode} (h : Phase s) (hstarts : StartsOnce s)
    (hstep : step s (.resume hostName) = some t) : Phase t ∧ StartsOnce t := by
  obtain ⟨op,hop,hres⟩ := Option.bind_eq_some_iff.mp hstep
  split at hres
  · next ec hdone =>
    obtain rfl := Option.some.inj hres
    refine ⟨?_,hstarts.same (sameStart_resume s op ec hostName)⟩
    cases h with
    | idle h hdown => simp [h.outstanding] at hop
    | up h hlog => simp [h.outstanding] at hop
    | armed op' h hdown hlog =>
      obtain rfl : op = op' := by simpa [hop] using h.outstanding
      exact phase_resume h hdown hlog hostName
    | failing h hlog =>
      rcases h.outstanding with ⟨op',hop',hfail⟩ | ⟨hnone,-⟩
      · obtain rfl : op = op' := by simpa [hop] using hop'
        rw [hdone] at hfail
        obtain ⟨e,rfl⟩ := Option.isSome_iff_exists.mp hfail
        refine Phase.failing (complete_failing h.down op e) ?_
        exact (sameStart_complete s op (some e)).started.mpr hlog
      · simp [hnone] at hop
  · simp at hres

theorem phase_step {s t : State} {a : Action} (h : Phase s) (hstarts : StartsOnce s) (hok : uncrossed s a = true)
    (hstep : step s a = some t) : Phase t ∧ StartsOnce t := by
  cases a with
  | start =>
    simp only [step] at hstep
    split at hstep
    · simp at hstep
    · next hcalled =>
      obtain rfl := Option.some.inj hstep
      refine ⟨h.tasks _ _,?_⟩
      obtain ⟨hnone,hnot⟩ : s.tasks.count .handleConnectCommand = 0 ∧ .started ∉ s.log := by
        simpa [StartsOnce,hcalled] using hstarts
      simp [StartsOnce,List.count_append,hnone,hnot]
  | stop =>
    obtain rfl := Option.some.inj hstep
    refine ⟨h.tasks _ s.startCalled,?_⟩
    simpa [StartsOnce,List.count_append] using hstarts
  | runTask i =>
    obtain ⟨task,hi,rfl⟩ := Option.map_eq_some_iff.mp hstep
    exact phase_runTask h hstarts hok hi
  | completes ec => exact phase_completes h hstarts hstep
  | resume hostName => exact phase_resumed h hstarts hstep

/-- A `stop` is not lost, in every run in which no `stop` runs while a step has succeeded and its
completion is queued. -/
theorem stop_is_obeyed {s : State} (h : (machine.restrict uncrossed).Reachable s) : Obeyed s := by
  have hboth : Phase s ∧ StartsOnce s := by
    refine h.invariant (I := fun s => Phase s ∧ StartsOnce s) ?_ ?_
    · rintro s rfl
      refine ⟨Phase.idle ⟨rfl,rfl,by simp [State.init]⟩ (by simp [Down,State.init]),?_⟩
      simp [StartsOnce,State.init]
    · intro s a t hs ha
      obtain ⟨hok,hstep⟩ := Machine.restrict_step_iff.mp ha
      exact phase_step hs.1 hs.2 hok hstep
  exact hboth.1.obeyed

def stopDuringHandshake : List Action :=
  [.start,.runTask 0,.completes none,.resume none,.completes none,.resume none,.stop,.runTask 0,
    .completes (some .operationAborted),.resume none]

theorem stop_is_obeyed_stopDuringHandshake :
    ∃ s, (machine.restrict uncrossed).replay State.init stopDuringHandshake = some s ∧ Caught s.log ∧ Obeyed s := by
  have hrun : (machine.restrict uncrossed).replay State.init stopDuringHandshake = some _ := rfl
  refine ⟨_,hrun,?_,stop_is_obeyed (Machine.Reachable.of_replay rfl hrun)⟩
  exact ⟨[],[.initiated .resolve,.initiated .connect,.initiated .tlsHandshake],
    [.connectHandler (some .operationAborted),.onError .operationAborted],rfl,by decide⟩

/-- A `stop` that runs between the completion of the resolve and the resumption of the operation. -/
def stopCrossesResolve : List Action :=
  [.start,.runTask 0,.completes none,.stop,.runTask 0,.resume none,.completes none,.resume none,.completes none,
    .resume none,.completes none,.resume none]

theorem stop_is_lost : ¬ ∀ s, machine.Reachable s → Obeyed s := by
  intro h
  have hrun : machine.replay State.init stopCrossesResolve = some _ := rfl
  have hobeyed := h _ (Machine.Reachable.of_replay rfl hrun)
  have hcaught : Caught [.started,.initiated .resolve,.stopped,.initiated .connect,.initiated .tlsHandshake,
      .initiated .websocketHandshake,.connectHandler none,.transportUp,.enteredReadState] :=
    ⟨[],[.initiated .resolve],_,rfl,by decide⟩
  have hup := (hobeyed hcaught).1 .transportUp (by decide)
  simp [Event.succeeds] at hup

end FmexConnect
end BeastWebsocketEcho
