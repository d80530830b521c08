import BeastWebsocketEcho.FmexConnectOutcomes

/-!
# What the register of the exchange client holds

While the operation is under way the register holds the callback of its step or nothing, and when
it is over the callback that closes the websocket or nothing. So every step of the connection's
strand is one of a few deeds.
-/

namespace BeastWebsocketEcho
namespace FmexConnect

variable {s t : State}

/-- What the register holds; `registered` says that it is the callback that closes the websocket. -/
inductive Coupled (s : State) (registered : Bool) : Prop
  | unstarted (hop : s.op = none) (hregister : s.register = StopRegister.empty) (htoken : s.token = StopToken.null)
      (hstarted : .started ∉ s.log) (hnot : registered = false)
  | connecting (op : Op) (hop : s.op = some op) (b : Bool)
      (hregister : s.register = ⟨(armedWith op.stage).1,if b then [] else [armedWith op.stage]⟩)
      (hb : b = true → .stopped ∈ s.log) (hheld : op.token = ⟨(armedWith op.stage).1,true⟩)
      (htoken : s.token = StopToken.null) (hstarted : .started ∈ s.log) (hnot : registered = false)
  | finished (hop : s.op = none) (hregister : s.register.map = if registered then [(3,.initiateClose)] else [])
      (hstarted : .started ∈ s.log)

theorem coupled_handleConnectCommand (hregister : s.register = StopRegister.empty) (htoken : s.token = StopToken.null) :
    Coupled s.handleConnectCommand false := by
  refine Coupled.connecting ⟨.resolve,.pending,⟨1,true⟩⟩ ?_ false ?_ nofun rfl htoken ?_ rfl
  · simp [State.handleConnectCommand,State.initiate,State.emit,hregister,StopRegister.add,StopRegister.empty]
  · simp [State.handleConnectCommand,State.initiate,State.emit,hregister,StopRegister.add,StopRegister.empty,armedWith,
      emplace]
  · simp [State.handleConnectCommand,State.initiate,State.emit]

section Operation

variable {op : Op} {b : Bool}

theorem coupled_failed (hregister : s.register = ⟨(armedWith op.stage).1,if b then [] else [armedWith op.stage]⟩)
    (hstarted : .started ∈ s.log) (hheld : op.token = ⟨(armedWith op.stage).1,true⟩) (e : Error) :
    Coupled (s.complete op (some e)) false := by
  refine Coupled.finished (complete_op s op _) ?_ ?_
  · unfold State.complete
    rw [hheld,own_drop (s := { s.handler (some e) with op := none }) hregister]
    rfl
  · rw [complete_log]
    exact List.mem_append_left _ hstarted

theorem coupled_came {l : List (UInt64 × Callback)} (hregister : s.register = ⟨2,l⟩)
    (hl : l = [] ∧ op.token.id = 0 ∨ (l = [] ∨ l = [(2,.cancelStream)]) ∧ op.token = ⟨2,true⟩)
    (htoken : s.token = StopToken.null) (hstarted : .started ∈ s.log) : Coupled (s.complete op none) true := by
  refine Coupled.finished (complete_op s op _) ?_ ?_
  · rcases hl with ⟨rfl,hid⟩ | ⟨rfl | rfl,hheld⟩
    · simp [State.complete,State.handler,State.emit,State.drop,hregister,hid,htoken,StopToken.null,StopRegister.add,
        emplace]
    · simp [State.complete,State.handler,State.emit,State.drop,hregister,hheld,htoken,StopToken.null,StopRegister.add,
        StopRegister.remove,emplace,eraseKey]
    · simp [State.complete,State.handler,State.emit,State.drop,hregister,hheld,htoken,StopToken.null,StopRegister.add,
        StopRegister.remove,emplace,eraseKey]
  · rw [complete_log]
    exact List.mem_append_left _ hstarted

/-- The operation goes on, or it ends: with the error of the step, if the step has failed. -/
theorem coupled_resume (hregister : s.register = ⟨(armedWith op.stage).1,if b then [] else [armedWith op.stage]⟩)
    (hb : b = true → .stopped ∈ s.log) (hheld : op.token = ⟨(armedWith op.stage).1,true⟩)
    (htoken : s.token = StopToken.null) (hstarted : .started ∈ s.log) (ec : ErrorCode) (hostName : Option ErrorCode) :
    (ec = none ∧ ∃ stage op', (s.resume op ec hostName).log = s.log ++ [.initiated stage] ∧
      (s.resume op ec hostName).op = some op' ∧ Coupled (s.resume op ec hostName) false) ∨
    ∃ ec', (ec.isSome = true → ec' = ec) ∧ (s.resume op ec hostName).log = s.log ++ handled ec' ∧
      (s.resume op ec hostName).op = none ∧ Coupled (s.resume op ec hostName) ec'.isNone := by
  have hnext (u : State) (stage : Stage) (harmed : armedWith stage = (2,.cancelStream)) (b : Bool)
      (hlog : u.log = s.log) (hb : b = true → .stopped ∈ s.log) (hu : u.token = StopToken.null)
      (hregister : u.register = ⟨2,if b then [] else [(2,.cancelStream)]⟩) :
        Coupled (u.initiate stage ⟨2,true⟩) false := by
    refine Coupled.connecting ⟨stage,.pending,⟨2,true⟩⟩ rfl b ?_ (fun htrue => ?_) ?_ hu ?_ rfl
    · rw [harmed]
      exact hregister
    · exact List.mem_append_left _ (hlog ▸ hb htrue)
    · rw [harmed]
    · exact List.mem_append_left _ (hlog ▸ hstarted)
  have hlogged (u : State) (stage : Stage) (hlog : u.log = s.log) (token : StopToken) :
      (u.initiate stage token).log = s.log ++ [.initiated stage] := by
    rw [← hlog]
    rfl
  cases ec with
  | some e => exact Or.inr ⟨some e,fun _ => rfl,complete_log s op _,complete_op s op _,
      coupled_failed hregister hstarted hheld e⟩
  | none =>
    cases hstage : op.stage with
    | resolve =>
      rw [hstage] at hregister hheld
      have hadded : (s.register.add .cancelStream).1 = ⟨2,true⟩ := by simp [hregister,armedWith,StopRegister.add]
      have hresume : s.resume op none hostName =
          ({ s with register := (s.register.add .cancelStream).2 }.drop op.token).initiate .connect ⟨2,true⟩ := by
        simp only [State.resume,hstage,hadded]
      have hlog : ({ s with register := (s.register.add .cancelStream).2 }.drop op.token).log = s.log := drop_log _ _
      rw [hresume]
      refine Or.inl ⟨rfl,.connect,_,hlogged _ _ hlog _,rfl,hnext _ _ rfl false hlog (by simp) ?_ ?_⟩
      · unfold State.drop
        split <;> exact htoken
      · cases b <;> simp [State.drop,hregister,hheld,armedWith,StopRegister.add,StopRegister.remove,emplace,eraseKey]
    | connect =>
      cases hostName with
      | some code =>
        simp only [State.resume,hstage]
        cases code with
        | some e => exact Or.inr ⟨some e,by simp,complete_log s op _,complete_op s op _,
            coupled_failed hregister hstarted hheld e⟩
        | none =>
          rw [hstage] at hregister hheld
          refine Or.inr ⟨none,by simp,complete_log s op _,complete_op s op _,
            coupled_came hregister (Or.inr ⟨?_,hheld⟩) htoken hstarted⟩
          cases b <;> simp [armedWith]
      | none =>
        rw [hstage] at hregister hheld
        have hresume : s.resume op none none = s.initiate .tlsHandshake ⟨2,true⟩ := by
          simp only [State.resume,hstage,hheld,armedWith]
        rw [hresume]
        exact Or.inl ⟨rfl,.tlsHandshake,_,hlogged s _ rfl _,rfl,hnext s _ rfl b rfl hb htoken hregister⟩
    | tlsHandshake =>
      rw [hstage] at hregister hheld
      have hresume : s.resume op none hostName = s.initiate .websocketHandshake ⟨2,true⟩ := by
        simp only [State.resume,hstage,hheld,armedWith]
      rw [hresume]
      exact Or.inl ⟨rfl,.websocketHandshake,_,hlogged s _ rfl _,rfl,hnext s _ rfl b rfl hb htoken hregister⟩
    | websocketHandshake =>
      simp only [State.resume,hstage]
      have hdropped : (s.drop op.token).register = ⟨2,[]⟩ := by
        rw [hheld,own_drop hregister,hstage]
        rfl
      have hu : (s.drop op.token).token = StopToken.null := by
        unfold State.drop
        split <;> exact htoken
      refine Or.inr ⟨none,by simp,?_,complete_op _ _ _,coupled_came hdropped (Or.inl ⟨rfl,rfl⟩) hu ?_⟩
      · rw [complete_log,drop_log]
      · rwa [drop_log]

/-- A `notify_all` while the operation is under way: it cancels the outstanding step, or finds no callback. -/
theorem coupled_stopped (hop : s.op = some op)
    (hregister : s.register = ⟨(armedWith op.stage).1,if b then [] else [armedWith op.stage]⟩)
    (hheld : op.token = ⟨(armedWith op.stage).1,true⟩) (htoken : s.token = StopToken.null)
    (hstarted : .started ∈ s.log) :
    s.notifyAll.log = s.log ++ [.stopped] ∧ Coupled s.notifyAll false ∧
      s.notifyAll.op = some (if b then op else { op with status := op.status.cancel }) := by
  have hcancels : (armedWith op.stage).2.cancels op.stage = true := by cases op.stage <;> rfl
  have hcallback : (armedWith op.stage).2 ≠ .initiateClose := by cases op.stage <;> simp [armedWith]
  have hnotify : s.notifyAll = { s.emit .stopped with
      register := ⟨(armedWith op.stage).1,[]⟩,
      op := some (if b then op else { op with status := op.status.cancel }) } := by
    cases b with
    | true => simp [State.notifyAll,hregister,StopRegister.takeAll,State.emit,hop]
    | false =>
      simp only [State.notifyAll,hregister,StopRegister.takeAll,Bool.false_eq_true,if_false,List.map_cons,List.map_nil,
        List.foldl_cons,List.foldl_nil]
      refine (runCallback_some (s := { s.emit .stopped with register := ⟨(armedWith op.stage).1,[]⟩ })
        hop hcallback).trans ?_
      rw [if_pos hcancels]
  rw [hnotify]
  refine ⟨rfl,?_,rfl⟩
  cases b with
  | true =>
    exact Coupled.connecting op rfl true rfl (by simp [State.emit]) hheld htoken
      (List.mem_append_left _ hstarted) rfl
  | false =>
    exact Coupled.connecting { op with status := op.status.cancel } rfl true rfl (by simp [State.emit]) hheld htoken
      (List.mem_append_left _ hstarted) rfl

end Operation

/-- A `notify_all` when the operation is over: it closes the websocket if the register says so. -/
theorem coupled_closed {registered : Bool} (hop : s.op = none)
    (hregister : s.register.map = if registered then [(3,.initiateClose)] else []) (hstarted : .started ∈ s.log) :
    s.notifyAll.log = s.log ++ (.stopped :: if registered then [.closeInitiated] else []) ∧ s.notifyAll.op = none ∧
      Coupled s.notifyAll false := by
  cases registered with
  | true =>
    have hnotify : s.notifyAll = ({ s with register := s.register.takeAll.2 }.emit .stopped).emit .closeInitiated := by
      simp [State.notifyAll,StopRegister.takeAll,hregister,State.runCallback]
    rw [hnotify]
    refine ⟨by simp [State.emit],hop,Coupled.finished hop rfl ?_⟩
    simp [State.emit,hstarted]
  | false =>
    have hnotify : s.notifyAll = { s with register := s.register.takeAll.2 }.emit .stopped := by
      simp [State.notifyAll,StopRegister.takeAll,hregister]
    rw [hnotify]
    refine ⟨rfl,hop,Coupled.finished hop rfl ?_⟩
    simp [State.emit,hstarted]

/-- The register looks neither at the tasks nor at whether `start` was called. -/
theorem Coupled.tasks {registered : Bool} (h : Coupled s registered) (tasks : List Task) (startCalled : Bool) :
    Coupled { s with tasks := tasks, startCalled := startCalled } registered := by
  cases h with
  | unstarted h₁ h₂ h₃ h₄ h₅ => exact Coupled.unstarted h₁ h₂ h₃ h₄ h₅
  | connecting op h₁ b h₂ h₃ h₄ h₅ h₆ h₇ => exact Coupled.connecting op h₁ b h₂ h₃ h₄ h₅ h₆ h₇
  | finished h₁ h₂ h₃ => exact Coupled.finished h₁ h₂ h₃

inductive Deed (s : State) (a : Action) (t : State) (registered : Bool) : Prop
  | begins (hnew : s.log = []) (hop : t.op.isSome = true) (hlog : t.log = s.log ++ [.started,.initiated .resolve])
      (coupled : Coupled t false)
  | goes (op op' : Op) (hop : s.op = some op) (hop' : t.op = some op') (k : List Event) (hlog : t.log = s.log ++ k)
      (hk : k = [] ∨ ∃ stage, k = [.initiated stage])
      (hfails : failing op.status = true → abides s a = true → failing op'.status = true) (coupled : Coupled t false)
  | stops (op op' : Op) (ha : a = .runTask 0) (htask : s.tasks[0]? = some .notifyAll) (hop : s.op = some op)
      (hop' : t.op = some op') (hlog : t.log = s.log ++ [.stopped])
      (hfails : failing op.status = true → failing op'.status = true)
      (hcancels : .stopped ∉ s.log → op.status ≠ .done none → failing op'.status = true) (coupled : Coupled t false)
  | ends (op : Op) (ec : ErrorCode) (hop : s.op = some op) (hop' : t.op = none) (hlog : t.log = s.log ++ handled ec)
      (hfails : failing op.status = true → ec.isSome = true) (coupled : Coupled t ec.isNone)
  | closes (hop : s.op = none) (hop' : t.op = none) (hstarted : .started ∈ s.log)
      (hlog : t.log = s.log ++ (.stopped :: if registered then [.closeInitiated] else [])) (coupled : Coupled t false)

theorem Coupled.stop {registered : Bool} (h : Coupled s registered) (hstarted : .started ∈ s.log)
    (htask : s.tasks[0]? = some .notifyAll) :
    Deed s (.runTask 0) { s with tasks := s.tasks.eraseIdx 0 }.notifyAll registered := by
  cases h.tasks (s.tasks.eraseIdx 0) s.startCalled with
  | unstarted h₁ h₂ h₃ h₄ h₅ => exact absurd hstarted h₄
  | connecting op hop b hregister hb hheld htoken _ _ =>
    obtain ⟨hlog,coupled,hop'⟩ := coupled_stopped hop hregister hheld htoken hstarted
    have hcancel : op.status ≠ .done none → failing op.status.cancel = true := failing_cancel
    refine Deed.stops op _ rfl htask hop hop' hlog ?_ ?_ coupled
    · intro hfail
      cases b with
      | true => exact hfail
      | false =>
        refine hcancel ?_
        rintro hdone
        simp [hdone,failing] at hfail
    · intro hfirst hdone
      cases b with
      | true => exact absurd (hb rfl) hfirst
      | false => exact hcancel hdone
  | finished hop hregister _ =>
    obtain ⟨hlog,hop',coupled⟩ := coupled_closed hop hregister hstarted
    exact Deed.closes hop hop' hstarted hlog coupled

theorem Coupled.of_op {registered : Bool} {op : Op} (h : Coupled s registered) (hop : s.op = some op) :
    registered = false ∧ .started ∈ s.log := by
  cases h with
  | unstarted h₁ => simp [h₁] at hop
  | connecting op' h₁ b h₂ h₃ h₄ h₅ h₆ h₇ => exact ⟨h₇,h₆⟩
  | finished h₁ => simp [h₁] at hop

theorem Coupled.complete {registered : Bool} {ec : ErrorCode} (h : Coupled s registered)
    (hstep : anyStep s (.completes ec) = some t) : Deed s (.completes ec) t registered := by
  obtain ⟨op,hop,hends⟩ := Option.bind_eq_some_iff.mp hstep
  split at hends
  · cases hends
  · obtain rfl := Option.some.inj hends
    refine Deed.goes op { op with status := .done ec } hop rfl [] (List.append_nil _).symm (Or.inl rfl) ?_ ?_
    · intro hfail habides
      simp only [abides,hop,Option.all_some,hfail,Bool.not_true,Bool.or_false] at habides
      exact habides
    · cases h with
      | unstarted h₁ => simp [h₁] at hop
      | finished h₁ => simp [h₁] at hop
      | connecting op' hop' b hregister hb hheld htoken hstarted hnot =>
        obtain rfl : op' = op := by simpa [hop] using hop'.symm
        exact Coupled.connecting { op' with status := .done ec } rfl b hregister hb hheld htoken hstarted rfl

theorem Coupled.resumed {registered : Bool} {hostName : Option ErrorCode} (h : Coupled s registered)
    (hstep : step s (.resume hostName) = some t) : Deed s (.resume hostName) t registered := by
  obtain ⟨op,hop,hresume⟩ := Option.bind_eq_some_iff.mp hstep
  split at hresume
  · next ec hdone =>
    obtain rfl := Option.some.inj hresume
    cases h with
    | unstarted h₁ => simp [h₁] at hop
    | finished h₁ => simp [h₁] at hop
    | connecting op' hop' b hregister hb hheld htoken hstarted hnot =>
      obtain rfl : op' = op := by simpa [hop] using hop'.symm
      rcases coupled_resume hregister hb hheld htoken hstarted ec hostName with
        ⟨rfl,stage,op',hlog,hop',coupled⟩ | ⟨ec',hec,hlog,hop',coupled⟩
      · refine Deed.goes _ op' hop hop' [.initiated stage] hlog (Or.inr ⟨stage,rfl⟩) ?_ coupled
        simp [hdone,failing]
      · refine Deed.ends _ ec' hop hop' hlog ?_ coupled
        intro hfail
        have hsome : ec.isSome = true := by simpa [hdone,failing] using hfail
        rw [hec hsome]
        exact hsome
  · cases hresume

end FmexConnect
end BeastWebsocketEcho
