import BeastWebsocketEcho.FmexConnectRuns

/-!
# What connecting comes to

`connect_transport_op` for any outcomes of its steps: a step whose callback was run may still end
in any way. The outcomes are collected as the operation is resumed with them, setting the TLS host
name among them. They decide when `self.complete` is called and with what; the callback that is
registered follows the step in progress.
-/

namespace BeastWebsocketEcho
namespace FmexConnect

/-- What `n` steps in a row come to: the error of the first that fails, or success after the last. -/
def verdict : ℕ → List ErrorCode → Option ErrorCode
  | 0, _ => some none
  | _ + 1, [] => none
  | n + 1, none :: outcomes => verdict n outcomes
  | _ + 1, some e :: _ => some (some e)

def steps : ℕ := 5

/-- How many steps have succeeded when one is outstanding; setting the host name follows `connect`. -/
def Stage.succeeded : Stage → ℕ
  | .resolve => 0
  | .connect => 1
  | .tlsHandshake => 3
  | .websocketHandshake => 4

structure Trial where
  state : State
  outcomes : List ErrorCode

/-- The outcomes that the operation is given when it is resumed. -/
def given (s : State) : Action → List ErrorCode
  | .resume hostName =>
    match s.op with
    | some ⟨.connect,.done none,_⟩ => [none,hostName.join]
    | some ⟨_,.done ec,_⟩ => [ec]
    | _ => []
  | _ => []

/-- The steps of the connection, where a cancelled step may end in any way. -/
def anyStep (s : State) : Action → Option State
  | .completes ec =>
    s.op.bind fun op =>
      match op.status with
      | .done _ => none
      | _ => some { s with op := some { op with status := .done ec } }
  | a => step s a

/-- A step that was cancelled does not succeed. -/
def abides (s : State) : Action → Bool
  | .completes ec => ec.isSome || s.op.all fun op => !failing op.status
  | _ => true

/-- The steps of the connection are those in which cancelling does what it should. -/
theorem step_eq_anyStep (s : State) (a : Action) : step s a = if abides s a then anyStep s a else none := by
  cases a with
  | completes ec =>
    cases hop : s.op with
    | none => simp [step,anyStep,hop]
    | some op =>
      obtain ⟨stage,status,token⟩ := op
      cases status <;> cases ec <;> simp [step,anyStep,abides,hop,failing,Status.complete]
  | _ => rfl

def trial : Machine Trial Action where
  start t := t = ⟨State.init,[]⟩
  step t a := (anyStep t.state a).map fun s => ⟨s,t.outcomes ++ given t.state a⟩

/-- OpenSSL reports a code that is not zero when it fails. -/
def coded (_ : Trial) : Action → Bool
  | .resume (some none) => false
  | _ => true

def Event.completed? : Event → Option ErrorCode
  | .connectHandler ec => some ec
  | _ => none

def completions (log : List Event) : List ErrorCode := log.filterMap Event.completed?

/-- A callback is added when the resolve is started and when the connect is. -/
def Event.notifies (before : Bool) : Event → Bool
  | .initiated .resolve | .initiated .connect => false
  | .stopped => true
  | _ => before

/-- A `notify_all` has run since the operation last added a callback. -/
def notified (log : List Event) : Bool := log.foldl Event.notifies false

def own (r : StopRegister Callback) : List Callback := (r.map.map Prod.snd).filter (· ≠ .initiateClose)

/-- The call of `self.complete` in `operator()`, if there is one: the state it finds, the operation, the code. -/
def completing (s : State) (op : Op) (ec : ErrorCode) (hostName : Option ErrorCode) : Option (State × Op × ErrorCode) :=
  match ec,op.stage,hostName with
  | some e,_,_ => some (s,op,some e)
  | none,.connect,some code => some (s,op,code)
  | none,.websocketHandshake,_ => some (s.drop op.token,{ op with token := op.token.emptied },none)
  | _,_,_ => none

def StepFirst (before : List Event) (e : Event) : Prop := ∀ stage, e = .initiated stage → completions before = []

/-- What the outcomes given so far decide about the operation and the register. -/
structure Orderly (t : Trial) : Prop where
  completes : completions t.state.log = (verdict steps t.outcomes).toList
  outstanding : .started ∈ t.state.log → (t.state.op.isSome = true ↔ verdict steps t.outcomes = none)
  last : Chronicle StepFirst t.state.log
  suspended : ∀ op, t.state.op = some op →
    own t.state.register =
      if notified t.state.log then [] else [if op.stage = .resolve then .cancelResolver else .cancelStream]
  success : ∀ op ec hostName u op', t.state.op = some op → hostName ≠ some none →
    completing t.state op ec hostName = some (u,op',none) →
      t.state.resume op ec hostName = u.complete op' none ∧ own u.register = []
  destroyed : t.state.op = none → own t.state.register = []
  abandoned : ∀ op, t.state.op = some op → own (({ t.state with op := none } : State).drop op.token).register = []

section Logs

variable (l k : List Event) (e : Event)

@[simp] theorem completions_nil : completions [] = [] := rfl
@[simp] theorem completions_append : completions (l ++ k) = completions l ++ completions k := List.filterMap_append
@[simp] theorem completions_cons : completions (e :: l) = e.completed?.toList ++ completions l :=
  filterMap_cons_toList _ _ _
@[simp] theorem notified_nil : notified [] = false := rfl
@[simp] theorem notified_append : notified (l ++ k) = k.foldl Event.notifies (notified l) := List.foldl_append

end Logs

section Verdict

variable {n k : ℕ} {outcomes : List ErrorCode}

theorem verdict_replicate (hk : k ≤ n) :
    verdict n (List.replicate k none ++ outcomes) = verdict (n - k) outcomes := by
  induction k generalizing n with
  | zero => simp
  | succ k ih =>
    cases n with
    | zero => omega
    | succ n => simpa [List.replicate_succ,verdict] using ih (n := n) (by omega)

theorem verdict_succeeded (hk : k < n) : verdict n (List.replicate k none) = none := by
  have h : verdict n (List.replicate k none ++ []) = verdict (n - k) [] := verdict_replicate (le_of_lt hk)
  obtain ⟨m,hm⟩ : ∃ m, n - k = m + 1 := ⟨n - k - 1,by omega⟩
  simpa [hm,verdict] using h

theorem verdict_failed (hk : k < n) (e : Error) : verdict n (List.replicate k none ++ [some e]) = some (some e) := by
  rw [verdict_replicate (le_of_lt hk)]
  obtain ⟨m,hm⟩ : ∃ m, n - k = m + 1 := ⟨n - k - 1,by omega⟩
  simp [hm,verdict]

end Verdict

/-- `start` was called or not, and no step is outstanding. -/
structure Unstarted (t : Trial) : Prop where
  outstanding : t.state.op = none
  outcomes : t.outcomes = []
  completions : completions t.state.log = []
  register : t.state.register = StopRegister.empty
  token : t.state.token = StopToken.null
  started : .started ∉ t.state.log

/-- A step is outstanding, the steps before it have succeeded, and its callback is registered under the id that the
token of the operation holds. -/
structure Suspended (t : Trial) (op : Op) : Prop where
  outstanding : t.state.op = some op
  outcomes : t.outcomes = List.replicate op.stage.succeeded none
  completions : completions t.state.log = []
  register : t.state.register =
    ⟨(armedWith op.stage).1,if notified t.state.log then [] else [armedWith op.stage]⟩
  held : op.token = ⟨(armedWith op.stage).1,true⟩
  token : t.state.token = StopToken.null

structure Finished (t : Trial) (ec : ErrorCode) : Prop where
  outstanding : t.state.op = none
  outcomes : verdict steps t.outcomes = some ec
  completions : completions t.state.log = [ec]
  register : own t.state.register = []

inductive Course (t : Trial) : Prop
  | unstarted (h : Unstarted t)
  | suspended (op : Op) (h : Suspended t op) (started : .started ∈ t.state.log)
  | finished (ec : ErrorCode) (h : Finished t ec) (started : .started ∈ t.state.log)

structure Regular (t : Trial) : Prop where
  course : Course t
  startsOnce : StartsOnce t.state
  last : Chronicle StepFirst t.state.log

theorem own_armed (stage : Stage) (b : Bool) : own ⟨(armedWith stage).1,if b then [] else [armedWith stage]⟩ =
    if b then [] else [if stage = .resolve then .cancelResolver else .cancelStream] := by
  cases b <;> cases stage <;> simp [own,armedWith]

theorem own_drop {s : State} {stage : Stage} {b : Bool}
    (h : s.register = ⟨(armedWith stage).1,if b then [] else [armedWith stage]⟩) :
    (s.drop ⟨(armedWith stage).1,true⟩).register = ⟨(armedWith stage).1,[]⟩ := by
  cases b <;> cases stage <;> simp [State.drop,h,armedWith,StopRegister.remove,eraseKey]

/-- Success is reported after the token was reset. -/
theorem own_success {t : Trial} {op op' : Op} {ec : ErrorCode} {hostName : Option ErrorCode} {u : State}
    (h : Suspended t op) (hcode : hostName ≠ some none)
    (hcompleting : completing t.state op ec hostName = some (u,op',none)) : own u.register = [] := by
  unfold completing at hcompleting
  split at hcompleting
  · simp at hcompleting
  · simp only [Option.some.injEq,Prod.mk.injEq] at hcompleting
    obtain ⟨-,-,rfl⟩ := hcompleting
    exact absurd rfl hcode
  · simp only [Option.some.injEq,Prod.mk.injEq] at hcompleting
    obtain ⟨rfl,-,-⟩ := hcompleting
    rw [h.held,own_drop h.register]
    rfl
  · simp at hcompleting

theorem resume_eq_complete {s u : State} {op op' : Op} {ec ec' : ErrorCode} {hostName : Option ErrorCode}
    (h : completing s op ec hostName = some (u,op',ec')) : s.resume op ec hostName = u.complete op' ec' := by
  unfold completing at h
  split at h
  · simp only [Option.some.injEq,Prod.mk.injEq] at h
    obtain ⟨rfl,rfl,rfl⟩ := h
    rfl
  · next hstage =>
    simp only [Option.some.injEq,Prod.mk.injEq] at h
    obtain ⟨rfl,rfl,rfl⟩ := h
    simp only [State.resume,hstage]
  · next hstage =>
    simp only [Option.some.injEq,Prod.mk.injEq] at h
    obtain ⟨rfl,rfl,rfl⟩ := h
    simp only [State.resume,hstage]
  · simp at h

theorem Regular.orderly {t : Trial} (h : Regular t) : Orderly t := by
  cases h.course with
  | unstarted c =>
    refine ⟨?_,fun hs => absurd hs c.started,h.last,?_,?_,?_,?_⟩
    · simp [c.completions,c.outcomes,verdict,steps]
    · simp [c.outstanding]
    · simp [c.outstanding]
    · simp [c.register,own,StopRegister.empty]
    · simp [c.outstanding]
  | finished ec c =>
    refine ⟨?_,fun _ => ?_,h.last,?_,?_,fun _ => c.register,?_⟩
    · simp [c.completions,c.outcomes]
    · simp [c.outstanding,c.outcomes]
    · simp [c.outstanding]
    · simp [c.outstanding]
    · simp [c.outstanding]
  | suspended op c =>
    have hlt : op.stage.succeeded < steps := by cases op.stage <;> simp [Stage.succeeded,steps]
    have hverdict : verdict steps t.outcomes = none := by rw [c.outcomes]; exact verdict_succeeded hlt
    have hop : ∀ op', t.state.op = some op' → op' = op := by
      intro op' hop'
      simpa [c.outstanding,eq_comm] using hop'
    refine ⟨?_,fun _ => ?_,h.last,?_,?_,?_,?_⟩
    · simp [c.completions,hverdict]
    · simp [c.outstanding,hverdict]
    · intro op' hop'
      rw [hop op' hop',c.register]
      exact own_armed _ _
    · intro op' ec hostName u op'' hop' hcode hcompleting
      rw [hop op' hop'] at hcompleting
      exact ⟨hop op' hop' ▸ resume_eq_complete hcompleting,own_success c hcode hcompleting⟩
    · simp [c.outstanding]
    · intro op' hop'
      rw [hop op' hop',c.held,own_drop (s := { t.state with op := none }) c.register]
      rfl

theorem Course.tasks {t : Trial} (h : Course t) (tasks : List Task) (startCalled : Bool) :
    Course ⟨{ t.state with tasks := tasks, startCalled := startCalled },t.outcomes⟩ := by
  cases h with
  | unstarted h => exact Course.unstarted ⟨h.outstanding,h.outcomes,h.completions,h.register,h.token,h.started⟩
  | suspended op h hstarted =>
    exact Course.suspended op ⟨h.outstanding,h.outcomes,h.completions,h.register,h.held,h.token⟩ hstarted
  | finished ec h hstarted =>
    exact Course.finished ec ⟨h.outstanding,h.outcomes,h.completions,h.register⟩ hstarted

/-- What is logged besides steps and completions. -/
def Event.besides (e : Event) : Prop := e.completed? = none ∧ ∀ stage, e ≠ .initiated stage

/-- What a callback leaves alone: everything but the status of the outstanding step. -/
structure Untouched (s t : State) : Prop where
  register : t.register = s.register
  token : t.token = s.token
  op : t.op.map (fun op => (op.stage,op.token)) = s.op.map fun op => (op.stage,op.token)
  log : Grows (fun e => e.besides ∧ e ≠ .stopped) s.log t.log

theorem Untouched.trans {s t u : State} (h : Untouched s t) (h' : Untouched t u) : Untouched s u :=
  ⟨h'.register.trans h.register,h'.token.trans h.token,h'.op.trans h.op,h.log.trans h'.log⟩

theorem untouched_runCallback (s : State) (c : Callback) : Untouched s (s.runCallback c) := by
  by_cases hc : c = .initiateClose
  · subst hc
    refine ⟨rfl,rfl,rfl,(Grows.refl _).snoc ?_⟩
    simp [Event.besides,Event.completed?]
  · cases hop : s.op with
    | some op =>
      rw [runCallback_some hop hc]
      refine ⟨rfl,rfl,?_,Grows.refl _⟩
      rw [hop]
      simp only [Option.map_some]
      split <;> rfl
    | none =>
      rw [runCallback_none hop hc]
      refine ⟨rfl,rfl,by simp [State.emit,hop],(Grows.refl _).snoc ?_⟩
      simp [Event.besides,Event.completed?]

theorem untouched_notifyAll (s : State) :
    Untouched ({ s with register := s.register.takeAll.2 }.emit .stopped) s.notifyAll :=
  foldl_runCallback (P := Untouched _) (fun _ c ht => ht.trans (untouched_runCallback _ c)) _
    ⟨rfl,rfl,rfl,Grows.refl _⟩

theorem completions_grows {K : Event → Prop} {l l' : List Event} (h : Grows K l l') (hK : ∀ e, K e → e.besides) :
    completions l' = completions l := by
  obtain ⟨k,rfl,hk⟩ := h
  have hnone : completions k = [] := List.filterMap_eq_nil_iff.mpr fun e he => (hK e (hk e he)).1
  simp [hnone]

theorem notified_grows {l l' : List Event} (h : Grows (fun e => e.besides ∧ e ≠ .stopped) l l') :
    notified l' = notified l := by
  obtain ⟨k,rfl,hk⟩ := h
  refine append_induction (P := fun x => notified x = notified l) rfl k ?_
  intro x e he hx
  obtain ⟨⟨-,hinitiated⟩,hstopped⟩ := hk e he
  rw [notified_append,← hx]
  cases e with
  | initiated stage => exact absurd rfl (hinitiated stage)
  | stopped => exact absurd rfl hstopped
  | _ => rfl

theorem course_notifyAll {t : Trial} (h : Course t) : Course ⟨t.state.notifyAll,t.outcomes⟩ := by
  have huntouched := untouched_notifyAll t.state
  have hstarted := (sameStart_notifyAll t.state).started
  have hregister : t.state.notifyAll.register = ⟨t.state.register.nextId,[]⟩ := huntouched.register
  have htoken : t.state.notifyAll.token = t.state.token := huntouched.token
  have hcompletions : completions t.state.notifyAll.log = completions t.state.log := by
    rw [completions_grows huntouched.log fun e he => he.1]
    simp [State.emit,Event.completed?]
  have hnotified : notified t.state.notifyAll.log = true := by
    rw [notified_grows huntouched.log]
    simp [State.emit,Event.notifies]
  have hop := huntouched.op
  cases h with
  | unstarted h =>
    have hnone : t.state.notifyAll.op = none := by simpa [State.emit,h.outstanding] using hop
    refine Course.unstarted ⟨hnone,h.outcomes,hcompletions.trans h.completions,?_,htoken.trans h.token,?_⟩
    · rw [hregister,h.register]
      rfl
    · exact fun hs => h.started (hstarted.mp hs)
  | suspended op h hs =>
    obtain ⟨op',hop',heq⟩ : ∃ op', t.state.notifyAll.op = some op' ∧ (op'.stage,op'.token) = (op.stage,op.token) := by
      simpa [State.emit,h.outstanding] using hop
    obtain ⟨hstage,hheld⟩ := Prod.mk.inj heq
    refine Course.suspended op' ⟨hop',?_,hcompletions.trans h.completions,?_,?_,htoken.trans h.token⟩ (hstarted.mpr hs)
    · rw [hstage]
      exact h.outcomes
    · rw [hregister,hnotified,h.register,hstage]
      simp
    · rw [hheld,hstage]
      exact h.held
  | finished ec h hs =>
    have hnone : t.state.notifyAll.op = none := by simpa [State.emit,h.outstanding] using hop
    refine Course.finished ec ⟨hnone,h.outcomes,hcompletions.trans h.completions,?_⟩ (hstarted.mpr hs)
    simp [hregister,own]

theorem completions_complete (s : State) (op : Op) (ec : ErrorCode) :
    completions (s.complete op ec).log = completions s.log ++ [ec] := by
  rw [complete_log]
  cases ec <;> simp [handled,Event.completed?]

theorem own_complete_error {t : Trial} {op : Op} (h : Suspended t op) (e : Error) :
    own (t.state.complete op (some e)).register = [] := by
  unfold State.complete
  rw [h.held,own_drop (s := { t.state.handler (some e) with op := none }) h.register]
  rfl

theorem own_complete_success {t : Trial} {op : Op} (h : Suspended t op) :
    own ((t.state.drop op.token).complete { op with token := op.token.emptied } none).register = [] := by
  have hregister : (t.state.drop op.token).register = ⟨(armedWith op.stage).1,[]⟩ := h.held ▸ own_drop h.register
  have htoken : (t.state.drop op.token).token = StopToken.null := by
    unfold State.drop
    split <;> exact h.token
  generalize t.state.drop op.token = u at hregister htoken ⊢
  simp [State.complete,State.handler,State.emit,State.drop,StopToken.emptied,htoken,hregister,StopToken.null,
    StopRegister.add,own,emplace]

theorem finished_error {t : Trial} {op : Op} (h : Suspended t op) (k : ℕ) (hk : op.stage.succeeded + k < steps)
    (e : Error) :
    Finished ⟨t.state.complete op (some e),t.outcomes ++ (List.replicate k none ++ [some e])⟩ (some e) := by
  refine ⟨complete_op _ _ _,?_,?_,own_complete_error h e⟩
  · simpa [h.outcomes,← List.append_assoc,List.replicate_append_replicate] using verdict_failed hk e
  · simp [completions_complete,h.completions]

theorem finished_success {t : Trial} {op : Op} (h : Suspended t op) (hstage : op.stage = .websocketHandshake) :
    Finished ⟨(t.state.drop op.token).complete { op with token := op.token.emptied } none,t.outcomes ++ [none]⟩
      none := by
  refine ⟨complete_op _ _ _,?_,?_,own_complete_success h⟩
  · simp [h.outcomes,hstage,Stage.succeeded,List.replicate_succ,verdict,steps]
  · simp [completions_complete,h.completions]

theorem suspended_initiate {t : Trial} {op : Op} (h : Suspended t op) {stage : Stage} (hnow : op.stage ≠ .resolve)
    (hnext : stage = .tlsHandshake ∨ stage = .websocketHandshake) {outcomes : List ErrorCode}
    (houtcomes : outcomes = List.replicate stage.succeeded none) :
    Suspended ⟨t.state.initiate stage op.token,outcomes⟩ ⟨stage,.pending,op.token⟩ := by
  have harmed : armedWith stage = armedWith op.stage := by
    rcases hnext with rfl | rfl <;> cases hstage : op.stage <;> simp_all [armedWith]
  have hnotified : notified (t.state.initiate stage op.token).log = notified t.state.log := by
    rcases hnext with rfl | rfl <;> simp [State.initiate,State.emit,Event.notifies]
  refine ⟨rfl,houtcomes,?_,?_,?_,h.token⟩
  · simp [State.initiate,State.emit,Event.completed?,h.completions]
  · rw [harmed,hnotified]
    exact h.register
  · rw [harmed]
    exact h.held

/-- The connect is started with its own callback, in the place of the one for the resolve. -/
theorem suspended_connect {t : Trial} {op : Op} (h : Suspended t op) (hnow : op.stage = .resolve)
    {hostName : Option ErrorCode} :
    Suspended ⟨t.state.resume op none hostName,t.outcomes ++ [none]⟩ ⟨.connect,.pending,⟨2,true⟩⟩ := by
  have hregister := h.register
  have hheld := h.held
  rw [hnow] at hregister hheld
  have hadded : (t.state.register.add .cancelStream).1 = ⟨2,true⟩ := by
    simp [hregister,armedWith,StopRegister.add]
  simp only [State.resume,hnow,hadded]
  refine ⟨rfl,?_,?_,?_,rfl,?_⟩
  · simp [h.outcomes,hnow,Stage.succeeded]
  · simp [State.initiate,State.emit,Event.completed?,h.completions]
  · cases hn : notified t.state.log <;>
      simp [State.initiate,State.emit,State.drop,hregister,hheld,hn,armedWith,StopRegister.add,StopRegister.remove,
        emplace,eraseKey,Event.notifies]
  · simp only [State.initiate,State.emit]
    unfold State.drop
    split <;> exact h.token

theorem course_resume {t : Trial} {op : Op} {ec : ErrorCode} {hostName : Option ErrorCode} (h : Suspended t op)
    (hdone : op.status = .done ec) (hcode : hostName ≠ some none) (hstarted : .started ∈ t.state.log) :
    Course ⟨t.state.resume op ec hostName,t.outcomes ++ given t.state (.resume hostName)⟩ := by
  have hstarted' := (sameStart_resume t.state op ec hostName).started.mpr hstarted
  obtain ⟨stage,status,token⟩ := op
  obtain rfl : status = .done ec := hdone
  have hgiven : given t.state (.resume hostName) =
      if stage = .connect ∧ ec = none then [none,hostName.join] else [ec] := by
    cases stage <;> cases ec <;> simp [given,h.outstanding]
  cases ec with
  | some e =>
    have hlt : stage.succeeded + 0 < steps := by cases stage <;> simp [Stage.succeeded,steps]
    have hfinished := finished_error h 0 hlt e
    rw [hgiven,if_neg (by simp)]
    simp only [List.replicate_zero,List.nil_append] at hfinished
    exact Course.finished _ hfinished hstarted'
  | none =>
    cases stage with
    | resolve =>
      rw [hgiven]
      exact Course.suspended _ (suspended_connect h rfl) hstarted'
    | connect =>
      rw [hgiven]
      cases hostName with
      | none =>
        refine Course.suspended _ (suspended_initiate h (by simp) (Or.inl rfl) ?_) hstarted'
        simp [h.outcomes,Stage.succeeded,List.replicate_succ]
      | some code =>
        cases code with
        | none => exact absurd rfl hcode
        | some e => exact Course.finished _ (finished_error h 1 (by simp [Stage.succeeded,steps]) e) hstarted'
    | tlsHandshake =>
      rw [hgiven]
      refine Course.suspended _ (suspended_initiate h (by simp) (Or.inr rfl) ?_) hstarted'
      simp [h.outcomes,Stage.succeeded,List.replicate_succ]
    | websocketHandshake =>
      rw [hgiven]
      exact Course.finished _ (finished_success h rfl) hstarted'

theorem course_handleConnectCommand {t : Trial} (h : Unstarted t) :
    Course ⟨t.state.handleConnectCommand,t.outcomes⟩ := by
  refine Course.suspended ⟨.resolve,.pending,⟨1,true⟩⟩ ⟨?_,h.outcomes,?_,?_,rfl,h.token⟩ ?_
  · simp [State.handleConnectCommand,State.initiate,State.emit,h.register,StopRegister.add,StopRegister.empty]
  · simp [State.handleConnectCommand,State.initiate,State.emit,Event.completed?,h.completions]
  · simp [State.handleConnectCommand,State.initiate,State.emit,h.register,StopRegister.add,StopRegister.empty,
      armedWith,emplace,Event.notifies]
  · simp [State.handleConnectCommand,State.initiate,State.emit]

/-- Steps and completions are logged by the operation alone. -/
theorem last_resume {s : State} {op : Op} {ec : ErrorCode} {hostName : Option ErrorCode}
    (h : Chronicle StepFirst s.log) (hnone : completions s.log = []) :
    Chronicle StepFirst (s.resume op ec hostName).log := by
  have hcomplete : ∀ (u : State) op ec, u.log = s.log → Chronicle StepFirst (u.complete op ec).log := by
    intro u op ec hlog
    rw [complete_log,hlog]
    refine append_induction h _ fun l e he hl => hl.snoc ?_
    rintro stage rfl
    cases ec <;> simp [handled] at he
  have hinitiate : ∀ (u : State) stage token, u.log = s.log → Chronicle StepFirst (u.initiate stage token).log := by
    intro u stage token hlog
    have hlog' : (u.initiate stage token).log = s.log ++ [Event.initiated stage] := by
      rw [← hlog]
      rfl
    rw [hlog']
    exact h.snoc fun _ _ => hnone
  cases ec with
  | some e => exact hcomplete s op (some e) rfl
  | none =>
    cases hstage : op.stage with
    | resolve =>
      simp only [State.resume,hstage]
      exact hinitiate _ _ _ (drop_log _ _)
    | connect =>
      cases hostName with
      | some code => simpa only [State.resume,hstage] using hcomplete s op code rfl
      | none => simpa only [State.resume,hstage] using hinitiate s .tlsHandshake op.token rfl
    | tlsHandshake => simpa only [State.resume,hstage] using hinitiate s .websocketHandshake op.token rfl
    | websocketHandshake =>
      simp only [State.resume,hstage]
      exact hcomplete _ _ none (drop_log s op.token)

theorem last_notifyAll {s : State} (h : Chronicle StepFirst s.log) : Chronicle StepFirst s.notifyAll.log := by
  refine ((untouched_notifyAll s).log.chronicle_iff ?_).mpr (h.snoc ?_)
  · rintro before e he stage rfl
    exact absurd rfl (he.1.2 stage)
  · intro stage hstage
    cases hstage

theorem regular_runTask {t : Trial} {i : ℕ} {task : Task} (h : Regular t) (hi : t.state.tasks[i]? = some task) :
    Regular ⟨{ t.state with tasks := t.state.tasks.eraseIdx i }.runTask task,t.outcomes⟩ := by
  have hcount := count_eraseIdx hi
  have hstarts := h.startsOnce
  have hcourse := h.course.tasks (t.state.tasks.eraseIdx i) t.state.startCalled
  cases task with
  | handleConnectCommand =>
    have hstarted : .started ∉ t.state.log := by
      intro hmem
      simp only [StartsOnce,hcount,hmem,if_pos] at hstarts
      split at hstarts <;> omega
    cases hcourse with
    | unstarted c =>
      refine ⟨course_handleConnectCommand c,?_,?_⟩
      · simp only [StartsOnce,hcount,hstarted,if_pos,if_false] at hstarts
        simpa [StartsOnce,State.runTask,State.handleConnectCommand,State.initiate,State.emit] using hstarts
      · refine (h.last.snoc ?_).snoc ?_
        · intro stage hstage
          cases hstage
        · intro stage _
          have hnone : completions t.state.log = [] := c.completions
          simp [hnone,Event.completed?]
    | suspended op c hs => exact absurd hs hstarted
    | finished ec c hs => exact absurd hs hstarted
  | notifyAll =>
    refine ⟨course_notifyAll hcourse,?_,last_notifyAll (s := { t.state with tasks := _ }) h.last⟩
    refine StartsOnce.same ?_ (sameStart_notifyAll _)
    simpa [StartsOnce,hcount] using hstarts

theorem regular_step {t t' : Trial} {a : Action} (h : Regular t) (hcode : coded t a = true)
    (hstep : trial.step t a = some t') : Regular t' := by
  obtain ⟨s,hs,rfl⟩ := Option.map_eq_some_iff.mp hstep
  have hstarts := h.startsOnce
  cases a with
  | start =>
    simp only [anyStep,step] at hs
    split at hs
    · simp at hs
    · next hcalled =>
      obtain rfl := Option.some.inj hs
      simp only [given,List.append_nil]
      refine ⟨h.course.tasks _ _,?_,h.last⟩
      obtain ⟨hnone,hnot⟩ : t.state.tasks.count .handleConnectCommand = 0 ∧ .started ∉ t.state.log := by
        simpa [StartsOnce,hcalled] using hstarts
      simp [StartsOnce,List.count_append,hnone,hnot]
  | stop =>
    obtain rfl := Option.some.inj hs
    simp only [given,List.append_nil]
    refine ⟨h.course.tasks _ t.state.startCalled,?_,h.last⟩
    simpa [StartsOnce,List.count_append] using hstarts
  | runTask i =>
    obtain ⟨task,hi,rfl⟩ := Option.map_eq_some_iff.mp hs
    simpa only [given,List.append_nil] using regular_runTask h hi
  | completes ec =>
    obtain ⟨op,hop,hs⟩ := Option.bind_eq_some_iff.mp hs
    simp only [given,List.append_nil]
    split at hs
    · simp at hs
    · obtain rfl := Option.some.inj hs
      refine ⟨?_,hstarts,h.last⟩
      cases h.course with
      | unstarted c => simp [c.outstanding] at hop
      | finished ec c hstarted => simp [c.outstanding] at hop
      | suspended op' c hstarted =>
        obtain rfl : op = op' := by simpa [hop] using c.outstanding
        exact Course.suspended _ ⟨rfl,c.outcomes,c.completions,c.register,c.held,c.token⟩ hstarted
  | resume hostName =>
    have hname : hostName ≠ some none := by
      rintro rfl
      simp [coded] at hcode
    obtain ⟨op,hop,hs⟩ := Option.bind_eq_some_iff.mp hs
    split at hs
    · next ec hdone =>
      obtain rfl := Option.some.inj hs
      cases h.course with
      | unstarted c => simp [c.outstanding] at hop
      | finished ec c hstarted => simp [c.outstanding] at hop
      | suspended op' c hstarted =>
        obtain rfl : op = op' := by simpa [hop] using c.outstanding
        exact ⟨course_resume c hdone hname hstarted,hstarts.same (sameStart_resume _ op ec hostName),
          last_resume h.last c.completions⟩
    · simp at hs

theorem regular_start {t : Trial} (h : trial.start t) : Regular t := by
  obtain rfl := h
  refine ⟨Course.unstarted ⟨rfl,rfl,rfl,rfl,rfl,by simp [State.init]⟩,?_,Chronicle.nil⟩
  simp [StartsOnce,State.init]

/-- A run of the connection is one of the trial. -/
theorem reachable_trial {s : State} (h : machine.Reachable s) : ∃ outcomes, trial.Reachable ⟨s,outcomes⟩ := by
  refine h.invariant (I := fun s => ∃ outcomes, trial.Reachable ⟨s,outcomes⟩) ?_ ?_
  · rintro s rfl
    exact ⟨[],Machine.Reachable.init rfl⟩
  · rintro s a t ⟨outcomes,hs⟩ hstep
    have hany : anyStep s a = some t := by
      have hmeets : (if abides s a then anyStep s a else none) = some t := (step_eq_anyStep s a).symm.trans hstep
      exact (Option.ite_none_right_eq_some.mp hmeets).2
    have htrial : trial.step ⟨s,outcomes⟩ a = some ⟨t,outcomes ++ given s a⟩ := by simp [trial,hany]
    exact ⟨_,hs.step htrial⟩

/-- The operation completes once, with what the outcomes of its steps come to, starts no step after that, and leaves
no callback behind. -/
theorem connects_once {t : Trial} (h : (trial.restrict coded).Reachable t) : Orderly t := by
  have hregular : Regular t := by
    refine Machine.Reachable.invariant (m := trial.restrict coded) (I := Regular) (fun _ => regular_start) ?_ h
    intro s a t hs ha
    obtain ⟨hcode,hstep⟩ := Machine.restrict_step_iff.mp ha
    exact regular_step hs hcode hstep
  exact hregular.orderly

/-- A `stop` during the TLS handshake, which then succeeds, and a websocket handshake that fails. -/
def stopLosesHandshake : List Action :=
  [.start,.runTask 0,.completes none,.resume none,.completes none,.resume none,.stop,.runTask 0,
    .completes none,.resume none,.completes (some .closed),.resume none]

theorem connects_once_stopLosesHandshake :
    ∃ t, (trial.restrict coded).replay ⟨State.init,[]⟩ stopLosesHandshake = some t ∧ Orderly t ∧
      completions t.state.log = [some .closed] ∧ t.outcomes = [none,none,none,none,some .closed] := by
  have hrun : (trial.restrict coded).replay ⟨State.init,[]⟩ stopLosesHandshake = some _ := rfl
  exact ⟨_,hrun,connects_once (Machine.Reachable.of_replay rfl hrun),rfl,rfl⟩

end FmexConnect
end BeastWebsocketEcho
