import BeastWebsocketEcho.ConnectionBaseLife
import BeastWebsocketEcho.FmexClient
import BeastWebsocketEcho.FmexConnectDeeds

/-!
# The exchange client as a whole

With its connect operation and its register the connection does nothing but what `ConnectionBase`
does, where a stop is a callback that the register still holds.
-/

namespace BeastWebsocketEcho
namespace FmexClient

open FmexConnect (Coupled Deed failing handled)

variable {B F D : Type*} {v : ConnectionBase.Virtual B F D} {s t : State B F D} {c d : ConnectionBase.State B F D}

section Base

/-- What happens besides leaves the connect operation and the callback of the register alone. -/
theorem base_frame {a : ConnectionBase.Action B F D} (ha : baseActs a = true) (h : ConnectionBase.step v c a = some d) :
    (d.connects,d.closeRegistered) = (c.connects,c.closeRegistered) := by
  cases a with
  | connected ec => cases ha
  | stop => cases ha
  | read ec bytes =>
    obtain ⟨-,hok⟩ := Option.ite_none_right_eq_some.mp h
    obtain rfl := Option.some.inj hok
    cases ec with
    | some e => simp [ConnectionBase.State.onRead,ConnectionBase.State.emit]
    | none =>
      simp only [ConnectionBase.State.onRead]
      split <;> simp [ConnectionBase.State.enterReadState,ConnectionBase.State.emit]
  | wrote ec =>
    cases hw : c.writes with
    | nil => simp [ConnectionBase.step,hw] at h
    | cons frame writes =>
      simp only [ConnectionBase.step,hw,Option.some.injEq] at h
      subst h
      cases ec with
      | some e => simp [ConnectionBase.State.onWrite,ConnectionBase.State.emit]
      | none =>
        simp only [ConnectionBase.State.onWrite]
        split <;> simp [ConnectionBase.State.emit]
  | closed ec =>
    obtain ⟨-,hok⟩ := Option.ite_none_right_eq_some.mp h
    obtain rfl := Option.some.inj hok
    cases ec <;> simp [ConnectionBase.State.onClose,ConnectionBase.State.emit]
  | notifySend frame =>
    obtain rfl := Option.some.inj h
    obtain ⟨-,-,hregistered,hconnects,-⟩ := ConnectionBase.rest_eq_iff.mp (ConnectionBase.notifySend_rest c frame)
    rw [hconnects,hregistered]
  | fail ec =>
    obtain rfl := Option.some.inj h
    simp
  | derive x =>
    obtain rfl := Option.some.inj h
    rfl

theorem mem_told {log : List (ConnectionBase.Event F)} {e : ConnectionBase.Event F} :
    e ∈ ConnectionBase.told log ↔ e ∈ log ∧ e.sending = false := by simp [ConnectionBase.told]

theorem base_keeps {a : ConnectionBase.Action B F D} (h : ConnectionBase.step v c a = some d)
    {e : ConnectionBase.Event F} (he : e.sending = false) (hmem : e ∈ c.log) : e ∈ d.log := by
  obtain ⟨k,-,hlog⟩ := ConnectionBase.turn_step h
  have hold : e ∈ ConnectionBase.told d.log := by
    rw [hlog]
    exact List.mem_append_left _ (mem_told.mpr ⟨hmem,he⟩)
  exact (mem_told.mp hold).1

theorem connected_logs {ec : ErrorCode} (h : ConnectionBase.step v c (.connected ec) = some d) :
    .connectDone ec ∈ d.log ∧ d.connects = c.connects - 1 ∧
      (c.closeRegistered = false → d.closeRegistered = ec.isNone) := by
  obtain ⟨-,hok⟩ := Option.ite_none_right_eq_some.mp h
  obtain rfl := Option.some.inj hok
  cases ec with
  | some e =>
    refine ⟨(mem_told.mp ?_).1,by simp [ConnectionBase.State.handleConnect,ConnectionBase.State.emit],fun hnot => ?_⟩
    · simp only [ConnectionBase.State.handleConnect]
      rw [ConnectionBase.told_fail]
      simp [mem_told,ConnectionBase.State.emit,ConnectionBase.Event.sending]
    · simpa [ConnectionBase.State.handleConnect,ConnectionBase.State.emit] using hnot
  | none =>
    refine ⟨(mem_told.mp ?_).1,?_,fun _ => rfl⟩
    · simp only [ConnectionBase.State.handleConnect]
      rw [ConnectionBase.told_enterReadState]
      simp [mem_told,ConnectionBase.State.emit,ConnectionBase.Event.sending]
    · simp [ConnectionBase.State.handleConnect,ConnectionBase.State.enterReadState,ConnectionBase.State.emit]

end Base

/-- The strand of the connection runs in order, `handle_connect_command` first. -/
inductive Order (s : State B F D) : Prop
  | waits (hstarting : s.starting = true) (hsignals : s.signals = []) (htasks : s.link.tasks = [])
      (hlog : s.link.log = [])
  | leads (rest : List FmexConnect.Task) (hstarting : s.starting = false)
      (htasks : s.link.tasks = .handleConnectCommand :: rest) (hrest : .handleConnectCommand ∉ rest)
      (hlog : s.link.log = [])
  | past (hstarting : s.starting = false) (htasks : .handleConnectCommand ∉ s.link.tasks) (hlog : .started ∈ s.link.log)

/-- The connect operation, the register and the rest of the connection go together. -/
structure Whole (v : ConnectionBase.Virtual B F D) (s : State B F D) : Prop where
  order : Order s
  coupled : Coupled s.link s.base.closeRegistered
  base : s.link.log = [] ∧ (∃ d, s.base = idle d) ∨ .started ∈ s.link.log ∧ (ConnectionBase.machine v).Reachable s.base
  connects : s.link.op.isSome = true ↔ 0 < s.base.connects
  told : ∀ ec, .connectHandler ec ∈ s.link.log → .connectDone ec ∈ s.base.log

theorem Whole.reachable (h : Whole v s) (hstarted : .started ∈ s.link.log) :
    (ConnectionBase.machine v).Reachable s.base := by
  rcases h.base with ⟨hnew,-⟩ | ⟨-,hreach⟩
  · simp [hnew] at hstarted
  · exact hreach

theorem advance_eq {link : FmexConnect.State} {k : List FmexConnect.Event} (hlog : link.log = s.link.log ++ k) :
    s.advance v link = { s with link := link, base := k.foldl (follow v) s.base } := by
  unfold State.advance
  rw [hlog,List.drop_left]

/-- An operation that goes on has nothing to tell the rest of the connection. -/
theorem follow_initiated {k : List FmexConnect.Event} (hk : k = [] ∨ ∃ stage, k = [.initiated stage]) :
    k.foldl (follow v) c = c := by
  rcases hk with rfl | ⟨stage,rfl⟩ <;> rfl

theorem Order.frame (h : Order s) (hstarting : t.starting = s.starting) (hsignals : s.signals = [] → t.signals = [])
    (htasks : t.link.tasks = s.link.tasks) (hlog : t.link.log = s.link.log) : Order t := by
  cases h with
  | waits h₁ h₂ h₃ h₄ => exact Order.waits (hstarting.trans h₁) (hsignals h₂) (htasks.trans h₃) (hlog.trans h₄)
  | leads rest h₁ h₂ h₃ h₄ => exact Order.leads rest (hstarting.trans h₁) (htasks.trans h₂) h₃ (hlog.trans h₄)
  | past h₁ h₂ h₃ => exact Order.past (hstarting.trans h₁) (htasks ▸ h₂) (hlog ▸ h₃)

theorem deed_link {a : FmexConnect.Action} {link : FmexConnect.State} (h : Whole v s) (ha : linkActs a = true)
    (hstep : FmexConnect.anyStep s.link a = some link) :
    Deed s.link a link s.base.closeRegistered ∧ Order (s.advance v link) := by
  cases a with
  | start => cases ha
  | stop => cases ha
  | completes ec =>
    refine ⟨h.coupled.complete hstep,?_⟩
    obtain ⟨op,hop,hends⟩ := Option.bind_eq_some_iff.mp hstep
    split at hends
    · cases hends
    · obtain rfl := Option.some.inj hends
      exact h.order.frame rfl id rfl rfl
  | resume hostName =>
    refine ⟨h.coupled.resumed hstep,?_⟩
    obtain ⟨op,hop,hresume⟩ := Option.bind_eq_some_iff.mp hstep
    split at hresume
    · next ec hdone =>
      obtain rfl := Option.some.inj hresume
      have hsame := FmexConnect.sameStart_resume s.link op ec hostName
      obtain ⟨-,hstarted⟩ := h.coupled.of_op hop
      cases h.order with
      | waits h₁ h₂ h₃ h₄ => simp [h₄] at hstarted
      | leads rest h₁ h₂ h₃ h₄ => simp [h₄] at hstarted
      | past h₁ h₂ h₃ => exact Order.past h₁ (hsame.tasks ▸ h₂) (hsame.started.mpr h₃)
    · cases hresume
  | runTask i =>
    obtain rfl : i = 0 := by simpa [linkActs] using ha
    obtain ⟨task,htask,rfl⟩ := Option.map_eq_some_iff.mp hstep
    cases h.order with
    | waits h₁ h₂ h₃ h₄ => simp [h₃] at htask
    | leads rest h₁ h₂ h₃ h₄ =>
      obtain rfl : .handleConnectCommand = task := by simpa [h₂] using htask
      refine ⟨?_,Order.past h₁ ?_ ?_⟩
      · refine Deed.begins h₄ rfl (by simp [FmexConnect.State.runTask,FmexConnect.State.handleConnectCommand,
          FmexConnect.State.initiate,FmexConnect.State.emit]) ?_
        cases h.coupled with
        | unstarted g₁ g₂ g₃ => exact FmexConnect.coupled_handleConnectCommand g₂ g₃
        | connecting op g₁ b g₂ g₃ g₄ g₅ g₆ => simp [h₄] at g₆
        | finished g₁ g₂ g₃ => simp [h₄] at g₃
      · show FmexConnect.Task.handleConnectCommand ∉ s.link.tasks.eraseIdx 0
        rw [h₂]
        exact h₃
      · simp [State.advance,FmexConnect.State.runTask,FmexConnect.State.handleConnectCommand,FmexConnect.State.initiate,
          FmexConnect.State.emit]
    | past h₁ h₂ h₃ =>
      have hmem := List.mem_of_getElem? htask
      cases task with
      | handleConnectCommand => exact absurd hmem h₂
      | notifyAll =>
        have hsame := FmexConnect.sameStart_notifyAll { s.link with tasks := s.link.tasks.eraseIdx 0 }
        refine ⟨h.coupled.stop h₃ htask,Order.past h₁ (fun hin => h₂ ?_) (hsame.started.mpr h₃)⟩
        have hleft : .handleConnectCommand ∈ { s.link with tasks := s.link.tasks.eraseIdx 0 }.notifyAll.tasks := hin
        rw [hsame.tasks] at hleft
        exact List.mem_of_mem_eraseIdx hleft

/-- The rest of the connection follows its connect operation and its register, as `ConnectionBase` has it. -/
theorem whole_link {a : FmexConnect.Action} {link : FmexConnect.State} (h : Whole v s)
    (horder : Order (s.advance v link)) (hdeed : Deed s.link a link s.base.closeRegistered) :
    Whole v (s.advance v link) := by
  cases hdeed with
  | begins hnew hop hlog coupled =>
    rw [advance_eq hlog] at horder ⊢
    rcases h.base with ⟨-,d,hidle⟩ | ⟨hstarted,-⟩
    · have hinit : [FmexConnect.Event.started,.initiated .resolve].foldl (follow v) s.base =
        ConnectionBase.State.init d := by
        rw [hidle]
        rfl
      rw [hinit] at horder ⊢
      refine ⟨horder,coupled,Or.inr ⟨?_,Machine.Reachable.init ⟨d,rfl⟩⟩,?_,fun ec hmem => ?_⟩
      · simp [hlog]
      · simp [hop,ConnectionBase.State.init]
      · simp [hlog,hnew] at hmem
    · simp [hnew] at hstarted
  | goes op op' hop hop' k hlog hk hfails coupled =>
    obtain ⟨hnot,hstarted⟩ := h.coupled.of_op hop
    rw [advance_eq hlog,follow_initiated hk] at horder ⊢
    refine ⟨horder,hnot ▸ coupled,Or.inr ⟨?_,h.reachable hstarted⟩,?_,fun ec hmem => h.told ec ?_⟩
    · simp [hlog,hstarted]
    · rw [← h.connects]
      simp [hop,hop']
    · rcases hk with rfl | ⟨stage,rfl⟩ <;> simpa [hlog] using hmem
  | stops op op' ha htask hop hop' hlog hfails hcancels coupled =>
    obtain ⟨hnot,hstarted⟩ := h.coupled.of_op hop
    rw [advance_eq hlog] at horder ⊢
    refine ⟨horder,hnot ▸ coupled,Or.inr ⟨?_,h.reachable hstarted⟩,?_,fun ec hmem => h.told ec ?_⟩
    · simp [hlog,hstarted]
    · refine Iff.trans ?_ h.connects
      simp [hop,hop']
    · simpa [hlog] using hmem
  | ends op ec hop hop' hlog hfails coupled =>
    obtain ⟨hnot,hstarted⟩ := h.coupled.of_op hop
    have hgo : 0 < s.base.connects := h.connects.mp (by simp [hop])
    have hreach := h.reachable hstarted
    obtain ⟨hops,-,-⟩ := (ConnectionBase.reachable_life hreach).phase.of_connects hgo
    obtain ⟨d,hd⟩ : ∃ d, ConnectionBase.step v s.base (.connected ec) = some d := ⟨_,if_pos hgo⟩
    have hbase : (handled ec).foldl (follow v) s.base = d := by
      rw [ConnectionBase.step,if_pos hgo] at hd
      obtain rfl := Option.some.inj hd
      cases ec <;> rfl
    obtain ⟨hdone,hconnects,hregistered⟩ := connected_logs hd
    rw [advance_eq hlog,hbase] at horder ⊢
    refine ⟨horder,(hregistered hnot) ▸ coupled,Or.inr ⟨?_,hreach.step (a := .connected ec) hd⟩,?_,fun ec' hmem => ?_⟩
    · simp [hlog,hstarted]
    · simp only [Prod.mk.injEq] at hops
      simp [hop',hconnects,hops.1]
    · rw [hlog,List.mem_append] at hmem
      rcases hmem with hold | hnew
      · exact base_keeps hd rfl (h.told ec' hold)
      · obtain rfl : ec' = ec := by
          cases ec <;> simpa [handled] using hnew
        exact hdone
  | closes hop hop' hstarted hlog coupled =>
    have hreach := h.reachable hstarted
    have hbase :
        (FmexConnect.Event.stopped :: if s.base.closeRegistered then [.closeInitiated] else []).foldl (follow v)
          s.base = s.base.stop := by
      unfold ConnectionBase.State.stop
      split <;> rfl
    have hstop : ConnectionBase.step v s.base .stop = some s.base.stop := rfl
    have hleft : s.base.stop.closeRegistered = false ∧ s.base.stop.connects = s.base.connects := by
      unfold ConnectionBase.State.stop
      split
      · exact ⟨rfl,rfl⟩
      · next hnot => exact ⟨Bool.eq_false_iff.mpr hnot,rfl⟩
    rw [advance_eq hlog,hbase] at horder ⊢
    refine ⟨horder,hleft.1.symm ▸ coupled,Or.inr ⟨?_,hreach.step (a := .stop) hstop⟩,?_,fun ec hmem => ?_⟩
    · simp [hlog,hstarted]
    · rw [hleft.2,← h.connects]
      simp [hop,hop']
    · refine base_keeps hstop rfl (h.told ec ?_)
      split at hlog <;> simpa [hlog] using hmem

theorem Whole.outside (h : Whole v s) (horder : Order t) (hbase : t.base = s.base) {tasks : List FmexConnect.Task}
    {startCalled : Bool} (hlink : t.link = { s.link with tasks := tasks, startCalled := startCalled }) : Whole v t := by
  refine ⟨horder,?_,?_,?_,?_⟩
  · rw [hbase,hlink]
    exact h.coupled.tasks tasks startCalled
  all_goals
    rw [hbase,hlink]
  · exact h.base
  · exact h.connects
  · exact h.told

theorem Order.stop (h : Order s) (hstarting : s.starting = false) (ht : t.starting = false)
    (hlink : t.link = { s.link with tasks := s.link.tasks ++ [.notifyAll] }) : Order t := by
  cases h with
  | waits h₁ => simp [h₁] at hstarting
  | leads rest h₁ h₂ h₃ h₄ =>
    refine Order.leads (rest ++ [.notifyAll]) ht ?_ (by simp [h₃]) ?_
    · simp [hlink,h₂]
    · simp [hlink,h₄]
  | past h₁ h₂ h₃ =>
    refine Order.past ht ?_ ?_
    · simp [hlink,h₂]
    · simp [hlink,h₃]

theorem Order.started (h : Order s) (hsignals : s.signals ≠ []) : s.starting = false := by
  cases h with
  | waits _ h₂ => exact absurd h₂ hsignals
  | leads rest h₁ => exact h₁
  | past h₁ => exact h₁

theorem whole_init (d : D) : Whole v (State.init d) := by
  refine ⟨Order.waits rfl rfl rfl rfl,Coupled.unstarted rfl rfl rfl ?_ rfl,Or.inl ⟨rfl,d,rfl⟩,?_,fun ec hmem => ?_⟩
  · simp [State.init,FmexConnect.State.init]
  · simp [State.init,FmexConnect.State.init,idle]
  · simp [State.init,FmexConnect.State.init] at hmem

theorem whole_signalled {i : ℕ} {result : Except Error ℕ} {signals : List (Status (Except Error ℕ))} (h : Whole v s)
    (htake : takeAt s.signals i = some (result,signals)) : Whole v ({ s with signals := signals }.onSignal result) := by
  obtain ⟨hget,-⟩ := takeAt_cases htake
  have hstarting : s.starting = false := by
    refine h.order.started fun hnone => ?_
    simp [hnone] at hget
  have hsame (log : List Event) (exited : Bool) :
      Whole v { s with signals := signals, log := log, exited := exited } := by
    refine h.outside (h.order.frame rfl (fun hnone => ?_) rfl rfl) rfl rfl
    simp [hnone] at hget
  cases result with
  | error e =>
    dsimp only [State.onSignal]
    split
    · exact hsame _ _
    · exact hsame _ _
  | ok sig =>
    dsimp only [State.onSignal]
    split
    · exact h.outside (h.order.stop hstarting hstarting rfl) rfl rfl
    · exact hsame _ _

theorem whole_step {a : Action B F D} (h : Whole v s) (hstep : step v s a = some t) : Whole v t := by
  obtain ⟨-,hact⟩ := Option.ite_none_left_eq_some.mp hstep
  cases a with
  | start =>
    obtain ⟨hstarting,hok⟩ := Option.ite_none_right_eq_some.mp hact
    obtain rfl := Option.some.inj hok
    refine h.outside ?_ rfl rfl
    cases h.order with
    | waits h₁ h₂ h₃ h₄ =>
      refine Order.leads [] rfl ?_ (by simp) h₄
      simp [State.start,State.startConnections,h₃]
    | leads rest h₁ => simp [h₁] at hstarting
    | past h₁ => simp [h₁] at hstarting
  | stop =>
    obtain ⟨hstarting,hok⟩ := Option.ite_none_left_eq_some.mp hact
    obtain rfl := Option.some.inj hok
    exact h.outside (h.order.stop (Bool.eq_false_iff.mpr hstarting) (Bool.eq_false_iff.mpr hstarting) rfl) rfl rfl
  | signalCompletes i result =>
    obtain ⟨signals,hsignals,rfl⟩ := Option.map_eq_some_iff.mp hact
    refine h.outside (h.order.frame rfl (fun hnone => ?_) rfl rfl) rfl rfl
    simp [hnone,completeAt] at hsignals
  | signalled i =>
    obtain ⟨⟨result,signals⟩,htake,rfl⟩ := Option.map_eq_some_iff.mp hact
    exact whole_signalled h htake
  | link a =>
    obtain ⟨hacts,hmap⟩ := Option.ite_none_right_eq_some.mp hact
    obtain ⟨link,hlink,rfl⟩ := Option.map_eq_some_iff.mp hmap
    obtain ⟨hdeed,horder⟩ := deed_link h hacts hlink
    exact whole_link h horder hdeed
  | base a =>
    obtain ⟨⟨hacts,hstarted⟩,hbase⟩ := Option.ite_none_right_eq_some.mp hact
    obtain ⟨d,hd,rfl⟩ := Option.map_eq_some_iff.mp hbase
    have hframe := base_frame hacts hd
    simp only [Prod.mk.injEq] at hframe
    refine ⟨h.order.frame rfl id rfl rfl,?_,Or.inr ⟨hstarted,?_⟩,?_,fun ec hmem => base_keeps hd rfl (h.told ec hmem)⟩
    · exact hframe.2.symm ▸ h.coupled
    · rcases h.base with ⟨hnew,-⟩ | ⟨-,hreach⟩
      · simp [hnew] at hstarted
      · exact hreach.step (a := a) hd
    · exact h.connects.trans (by rw [hframe.1])

theorem whole_reachable (h : (machine v).Reachable s) : Whole v s := by
  refine h.invariant (I := Whole v) ?_ fun s a t hs ha => whole_step hs ha
  rintro s ⟨d,rfl⟩
  exact whole_init d

/-- The whole connection does what `ConnectionBase` does behind a connect operation of any outcome: it is connecting
as long as the operation is under way, and the register holds the callback that closes the websocket exactly when
`ConnectionBase` waits for a stop. -/
theorem client_refines_base (h : (machine v).Reachable s) :
    (.started ∉ s.link.log ∧ (∃ d, s.base = idle d) ∨ (ConnectionBase.machine v).Reachable s.base) ∧
    (s.link.op.isSome = true ↔ 0 < s.base.connects) ∧
    (s.base.closeRegistered = true ↔ .initiateClose ∈ s.link.register.map.map Prod.snd) ∧
    (∀ ec, .connectHandler ec ∈ s.link.log → .connectDone ec ∈ s.base.log) := by
  have hwhole := whole_reachable h
  refine ⟨?_,hwhole.connects,?_,hwhole.told⟩
  · refine hwhole.base.imp (fun hnew => ?_) fun hold => hold.2
    simp [hnew]
  · cases hwhole.coupled with
    | unstarted h₁ h₂ h₃ h₄ h₅ => simp [h₂,h₅,StopRegister.empty]
    | connecting op h₁ b h₂ h₃ h₄ h₅ h₆ h₇ =>
        cases b <;> cases hstage : op.stage <;> simp [h₂,h₇,hstage,FmexConnect.armedWith]
    | finished h₁ h₂ h₃ => cases hregistered : s.base.closeRegistered <;> simp [h₂,hregistered]

def closedWhileReading : List (Action ℕ ℕ ℕ) :=
  [.start,.link (.runTask 0),.link (.completes none),.link (.resume none),.link (.completes none),.link (.resume none),
    .link (.completes none),.link (.resume none),.link (.completes none),.link (.resume none),
    .base (.read none [5]),.stop,.link (.runTask 0),.base (.closed none)]

theorem client_refines_base_closedWhileReading :
    ∃ s, (machine ConnectionBase.countingErrors).replay (State.init 0) closedWhileReading = some s ∧
      .asyncClose ∈ s.base.log ∧ s.link.op.isSome = false ∧ s.base.connects = 0 ∧
      (s.base.closeRegistered = true ↔ .initiateClose ∈ s.link.register.map.map Prod.snd) := by
  have hrun : (machine ConnectionBase.countingErrors).replay (State.init 0) closedWhileReading = some _ := rfl
  have hreach : (machine ConnectionBase.countingErrors).Reachable _ := Machine.Reachable.of_replay ⟨0,rfl⟩ hrun
  exact ⟨_,hrun,by decide,rfl,rfl,(client_refines_base hreach).2.2.1⟩

end FmexClient
end BeastWebsocketEcho
