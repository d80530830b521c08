import BeastWebsocketEcho.FmexClientRuns

/-!
# How an interrupt is answered

An interrupt reaches the connection as a task of its strand. The connection is then closed, was
refused, or can only be refused, unless the task crosses a step of the connect operation that has
succeeded, or a step succeeds although it was cancelled.
-/

namespace BeastWebsocketEcho
namespace FmexClient

open FmexConnect (Deed failing handled)

variable {B F D : Type*} {v : ConnectionBase.Virtual B F D} {s t : State B F D} {c d : ConnectionBase.State B F D}

/-- No `stop` runs while a step of the connect operation has succeeded and its completion is queued, and a step that
was cancelled does not succeed. -/
def uncrossed (s : State B F D) : Action B F D → Bool
  | .link a => FmexConnect.uncrossed s.link a && FmexConnect.abides s.link a
  | _ => true

/-- The websocket was closed, or the connect operation has failed or can only fail. -/
def Answered (s : State B F D) : Prop :=
  .asyncClose ∈ s.base.log ∨ (∃ e, .connectDone (some e) ∈ s.base.log) ∨
    ∃ op, s.link.op = some op ∧ failing op.status = true

/-- A connection that is not connecting and waits for no stop was refused, or closed. -/
theorem closed_or_refused (h : ConnectionBase.Life c) (hconnects : c.connects = 0) (hnot : c.closeRegistered = false) :
    .asyncClose ∈ c.log ∨ ∃ e, .connectDone (some e) ∈ c.log := by
  have hread {e : ConnectionBase.Event F} (hmem : e ∈ ConnectionBase.reading c.log) : e ∈ c.log :=
    (List.mem_filter.mp hmem).1
  have hclose {e : ConnectionBase.Event F} (hmem : e ∈ ConnectionBase.closing c.log) : e ∈ c.log :=
    (List.mem_filter.mp hmem).1
  have hup (hmem : .transportUp ∈ ConnectionBase.reading c.log) : .asyncClose ∈ c.log := by
    cases h.closing with
    | waits h₁ h₂ h₃ =>
      rw [h₂.mpr hmem] at hnot
      cases hnot
    | asked h₁ h₂ h₃ h₄ => exact hclose (by simp [h₄])
    | closed ec h₁ h₂ h₃ h₄ => exact hclose (by simp [h₄])
  cases h.phase with
  | connecting hops =>
    simp only [Prod.mk.injEq] at hops
    omega
  | refused ec hops hlog => exact Or.inr ⟨ec,hread (by simp [hlog])⟩
  | up n hops hbuffer hlog => exact Or.inl (hup (by simp [hlog,ConnectionBase.comes]))
  | lost n ec hops hlog => exact Or.inl (hup (by simp [hlog,ConnectionBase.comes]))
  | threw n hops hlog => exact Or.inl (hup (by simp [hlog,ConnectionBase.comes]))

theorem Answered.frame (h : Answered s) (hbase : ∀ e, e.sending = false → e ∈ s.base.log → e ∈ t.base.log)
    (hop : ∀ op, s.link.op = some op → failing op.status = true →
      (∃ e, .connectDone (some e) ∈ t.base.log) ∨ ∃ op', t.link.op = some op' ∧ failing op'.status = true) :
    Answered t := by
  rcases h with hclosed | ⟨e,hrefused⟩ | ⟨op,hsome,hfail⟩
  · exact Or.inl (hbase _ rfl hclosed)
  · exact Or.inr (Or.inl ⟨e,hbase _ rfl hrefused⟩)
  · exact Or.inr (hop op hsome hfail)

/-- `Answered.frame`, where the operation is known. -/
theorem Answered.of_op (h : Answered s) {op : FmexConnect.Op} (hop : s.link.op = some op)
    (hbase : ∀ e, e.sending = false → e ∈ s.base.log → e ∈ t.base.log)
    (hfails : failing op.status = true →
      (∃ e, .connectDone (some e) ∈ t.base.log) ∨ ∃ op', t.link.op = some op' ∧ failing op'.status = true) :
    Answered t := by
  refine h.frame hbase fun op₀ hop₀ hfail => hfails ?_
  obtain rfl : op₀ = op := Option.some.inj (hop₀.symm.trans hop)
  exact hfail

theorem answered_link {a : FmexConnect.Action} {link : FmexConnect.State} (h : Whole v s)
    (hwhole : Whole v (s.advance v link)) (hdeed : Deed s.link a link s.base.closeRegistered)
    (hanswered : .stopped ∈ s.link.log → Answered s) (hok : FmexConnect.uncrossed s.link a = true)
    (habides : FmexConnect.abides s.link a = true) :
    .stopped ∈ link.log → Answered (s.advance v link) := by
  intro hstopped
  have htold := hwhole.told
  cases hdeed with
  | begins hnew hop hlog coupled => simp [hlog,hnew] at hstopped
  | goes op op' hop hop' k hlog hk hfails coupled =>
    have hold : .stopped ∈ s.link.log := by rcases hk with rfl | ⟨stage,rfl⟩ <;> simpa [hlog] using hstopped
    rw [advance_eq hlog,follow_initiated hk]
    exact (hanswered hold).of_op hop (fun e _ he => he) fun hfail => Or.inr ⟨op',hop',hfails hfail habides⟩
  | stops op op' ha htask hop hop' hlog hfails hcancels coupled =>
    rw [advance_eq hlog]
    by_cases hold : .stopped ∈ s.link.log
    · exact (hanswered hold).of_op hop (fun e _ he => he) fun hfail => Or.inr ⟨op',hop',hfails hfail⟩
    · subst ha
      refine Or.inr (Or.inr ⟨op',hop',hcancels hold fun hdone => ?_⟩)
      simp [FmexConnect.uncrossed,htask,hop,hdone] at hok
  | ends op ec hop hop' hlog hfails coupled =>
    have hold : .stopped ∈ s.link.log := by
      rw [hlog,List.mem_append] at hstopped
      refine hstopped.resolve_right ?_
      cases ec <;> simp [handled]
    have hdone : .connectDone ec ∈ (s.advance v link).base.log := by
      refine htold ec ?_
      show _ ∈ link.log
      rw [hlog]
      cases ec <;> simp [handled]
    refine (hanswered hold).of_op hop (fun e he hmem => ?_) fun hfail => Or.inl ?_
    · have hgo : 0 < s.base.connects := h.connects.mp (by simp [hop])
      have hstep : ConnectionBase.step v s.base (.connected ec) = some (s.advance v link).base := by
        rw [advance_eq hlog,ConnectionBase.step,if_pos hgo]
        cases ec <;> rfl
      exact base_keeps hstep he hmem
    · obtain ⟨e,rfl⟩ := Option.isSome_iff_exists.mp (hfails hfail)
      exact ⟨e,hdone⟩
  | closes hop hop' hstarted hlog coupled =>
    cases hregistered : s.base.closeRegistered with
    | true =>
      rw [advance_eq hlog,hregistered]
      refine Or.inl ?_
      simp [follow,ConnectionBase.State.initiateClose,ConnectionBase.State.emit]
    | false =>
      have hconnects : s.base.connects = 0 := by
        have hnot := h.connects.not.mp (by simp [hop])
        omega
      rw [advance_eq hlog,hregistered]
      have hlife := ConnectionBase.reachable_life (h.reachable hstarted)
      exact (closed_or_refused hlife hconnects hregistered).imp id Or.inl

/-- A stop that was asked for waits to run, or has run. -/
theorem asked_link {a : FmexConnect.Action} {link : FmexConnect.State} (ha : linkActs a = true)
    (hstep : FmexConnect.anyStep s.link a = some link) (h : .notifyAll ∈ s.link.tasks ∨ .stopped ∈ s.link.log)
    (hdeed : Deed s.link a link s.base.closeRegistered) : .notifyAll ∈ link.tasks ∨ .stopped ∈ link.log := by
  have hkeeps (hmem : .stopped ∈ s.link.log) : .stopped ∈ link.log := by
    cases hdeed with
    | begins h₁ h₂ hlog => simp [hlog,hmem]
    | goes op op' h₁ h₂ k hlog => simp [hlog,hmem]
    | stops op op' h₁ h₂ h₃ h₄ hlog => simp [hlog,hmem]
    | ends op ec h₁ h₂ hlog => simp [hlog,hmem]
    | closes h₁ h₂ h₃ hlog => simp [hlog,hmem]
  rcases h with htask | hstopped
  · cases a with
    | start => cases ha
    | stop => cases ha
    | completes ec =>
      obtain ⟨op,hop,hends⟩ := Option.bind_eq_some_iff.mp hstep
      split at hends
      · cases hends
      · obtain rfl := Option.some.inj hends
        exact Or.inl htask
    | resume hostName =>
      obtain ⟨op,hop,hresume⟩ := Option.bind_eq_some_iff.mp hstep
      split at hresume
      · next ec hdone =>
        obtain rfl := Option.some.inj hresume
        exact Or.inl ((FmexConnect.sameStart_resume s.link op ec hostName).tasks ▸ htask)
      · cases hresume
    | runTask i =>
      obtain ⟨task,hget,rfl⟩ := Option.map_eq_some_iff.mp hstep
      cases task with
      | handleConnectCommand =>
        rcases mem_eraseIdx_or_eq htask hget with heq | hrest
        · cases heq
        · exact Or.inl hrest
      | notifyAll =>
        obtain ⟨k,hlog,-⟩ := (FmexConnect.untouched_notifyAll { s.link with tasks := s.link.tasks.eraseIdx i }).log
        refine Or.inr ?_
        show _ ∈ FmexConnect.State.log (FmexConnect.State.notifyAll _)
        rw [hlog]
        simp [FmexConnect.State.emit]
  · exact Or.inr (hkeeps hstopped)

structure Heard (s : State B F D) : Prop where
  answered : .stopped ∈ s.link.log → Answered s
  asked : .signal (.ok sigint) ∈ s.log → .notifyAll ∈ s.link.tasks ∨ .stopped ∈ s.link.log

theorem Heard.outside (h : Heard s) {tasks : List FmexConnect.Task} {startCalled : Bool}
    (hlink : t.link = { s.link with tasks := tasks, startCalled := startCalled }) (hbase : t.base = s.base)
    (hasked : .signal (.ok sigint) ∈ t.log → .signal (.ok sigint) ∉ s.log → .notifyAll ∈ tasks)
    (htasks : ∀ task ∈ s.link.tasks, task ∈ tasks) : Heard t := by
  refine ⟨fun hstopped => ?_,fun hmem => ?_⟩
  · rw [hlink] at hstopped
    refine (h.answered hstopped).frame (fun e _ he => hbase ▸ he) fun op hop hfail => Or.inr ⟨op,?_,hfail⟩
    rw [hlink]
    exact hop
  · rw [hlink]
    by_cases hold : .signal (.ok sigint) ∈ s.log
    · exact (h.asked hold).imp (htasks _) id
    · exact Or.inl (hasked hmem hold)

theorem heard_step {a : Action B F D} (h : Heard s) (hwhole : Whole v s) (hok : uncrossed s a = true)
    (hstep : step v s a = some t) : Heard t := by
  have hwhole' := whole_step hwhole hstep
  obtain ⟨-,hact⟩ := Option.ite_none_left_eq_some.mp hstep
  cases a with
  | start =>
    obtain ⟨-,hsome⟩ := Option.ite_none_right_eq_some.mp hact
    obtain rfl := Option.some.inj hsome
    exact h.outside rfl rfl (fun hmem hnot => absurd hmem hnot) fun _ => List.mem_append_left _
  | stop =>
    obtain ⟨-,hsome⟩ := Option.ite_none_left_eq_some.mp hact
    obtain rfl := Option.some.inj hsome
    exact h.outside rfl rfl (fun hmem hnot => absurd hmem hnot) fun _ => List.mem_append_left _
  | signalCompletes i result =>
    obtain ⟨signals,-,rfl⟩ := Option.map_eq_some_iff.mp hact
    exact h.outside rfl rfl (fun hmem hnot => absurd hmem hnot) fun _ => id
  | signalled i =>
    obtain ⟨⟨result,signals⟩,-,rfl⟩ := Option.map_eq_some_iff.mp hact
    cases result with
    | error e =>
      dsimp only [State.onSignal]
      split
      · refine h.outside rfl rfl (fun hmem hnot => ?_) fun _ => id
        exact absurd (by simpa [State.emit] using hmem) hnot
      · refine h.outside rfl rfl (fun hmem hnot => ?_) fun _ => id
        exact absurd (by simpa [State.emit] using hmem) hnot
    | ok sig =>
      dsimp only [State.onSignal]
      split
      · refine h.outside rfl rfl (fun _ _ => ?_) fun _ => List.mem_append_left _
        simp
      · next hother =>
        refine h.outside rfl rfl (fun hmem hnot => ?_) fun _ => id
        exact absurd (by simpa [State.emit,Ne.symm hother] using hmem) hnot
  | link a =>
    obtain ⟨hacts,hmap⟩ := Option.ite_none_right_eq_some.mp hact
    obtain ⟨link,hlink,rfl⟩ := Option.map_eq_some_iff.mp hmap
    obtain ⟨hdeed,-⟩ := deed_link hwhole hacts hlink
    obtain ⟨hcrossed,habides⟩ := Bool.and_eq_true_iff.mp hok
    refine ⟨answered_link hwhole hwhole' hdeed h.answered hcrossed habides,fun hmem => ?_⟩
    exact asked_link hacts hlink (h.asked hmem) hdeed
  | base a =>
    obtain ⟨⟨-,-⟩,hbase⟩ := Option.ite_none_right_eq_some.mp hact
    obtain ⟨d,hd,rfl⟩ := Option.map_eq_some_iff.mp hbase
    refine ⟨fun hstopped => ?_,h.asked⟩
    exact (h.answered hstopped).frame (fun e he hmem => base_keeps hd he hmem) fun op hop hfail => Or.inr ⟨op,hop,hfail⟩

theorem heard_reachable (h : ((machine v).restrict uncrossed).Reachable s) : Whole v s ∧ Heard s := by
  refine h.invariant (I := fun s => Whole v s ∧ Heard s) ?_ ?_
  · rintro s ⟨d,rfl⟩
    refine ⟨whole_init d,fun hmem => ?_,fun hmem => ?_⟩
    · simp [State.init,FmexConnect.State.init] at hmem
    · simp [State.init] at hmem
  · intro s a t hs ha
    obtain ⟨hok,hstep⟩ := Machine.restrict_step_iff.mp ha
    exact ⟨whole_step hs.1 hstep,heard_step hs.2 hs.1 hok hstep⟩

/-- An interrupt that `on_signal` has taken is on its way to the connection or was answered, in every run in which no
stop crosses a step that has succeeded and no cancelled step succeeds: the websocket was closed, or the connection was
refused or can only be refused. A connection that was refused never came up. -/
theorem interrupt_is_answered (h : ((machine v).restrict uncrossed).Reachable s)
    (hsignal : .signal (.ok sigint) ∈ s.log) :
    (.notifyAll ∈ s.link.tasks ∨ Answered s) ∧
    ∀ e, .connectDone (some e) ∈ s.base.log → .transportUp ∉ s.base.log ∧ .asyncRead ∉ s.base.log := by
  obtain ⟨hwhole,hheard⟩ := heard_reachable h
  refine ⟨(hheard.asked hsignal).imp id hheard.answered,fun e hmem => ?_⟩
  have hread {e : ConnectionBase.Event F} (he : e.reads = true) (hmem : e ∈ s.base.log) :
      e ∈ ConnectionBase.reading s.base.log := List.mem_filter.mpr ⟨hmem,he⟩
  rcases hwhole.base with ⟨-,d,hidle⟩ | ⟨-,hreach⟩
  · simp [hidle,idle] at hmem
  · have hdone := hread (e := .connectDone (some e)) rfl hmem
    have hcomes (n : ℕ) : .connectDone (some e) ∉ (ConnectionBase.comes n : List (ConnectionBase.Event F)) := by
      simp [ConnectionBase.comes]
    cases (ConnectionBase.reachable_life hreach).phase with
    | refused ec hops hlog =>
      refine ⟨fun hup => ?_,fun hup => ?_⟩
      · have hin := hread (e := .transportUp) rfl hup
        simp [hlog] at hin
      · have hin := hread (e := .asyncRead) rfl hup
        simp [hlog] at hin
    | connecting hops hbuffer hlog => simp [hlog] at hdone
    | up n hops hbuffer hlog => exact absurd (hlog ▸ hdone) (hcomes n)
    | lost n ec hops hlog =>
      rw [hlog,List.mem_append] at hdone
      exact absurd (hdone.resolve_right (by simp)) (hcomes n)
    | threw n hops hlog =>
      rw [hlog,List.mem_append] at hdone
      exact absurd (hdone.resolve_right (by simp)) (hcomes n)

def interruptedWhileResolving : List (Action ℕ ℕ ℕ) :=
  [.start,.link (.runTask 0),.signalCompletes 0 (.ok sigint),.signalled 0,.link (.runTask 0),
    .link (.completes (some .operationAborted)),.link (.resume none)]

def refused : State ℕ ℕ ℕ :=
  ⟨false,[],
    ⟨true,[],⟨1,[]⟩,none,StopToken.null,
      [.started,.initiated .resolve,.stopped,.connectHandler (some .operationAborted),.onError .operationAborted]⟩,
    ⟨1,[],[],.sendIdle,false,0,0,[],0,[.asyncConnect,.connectDone (some .operationAborted),.error .operationAborted]⟩,
    false,[.signal (.ok sigint)]⟩

theorem interrupt_is_answered_interruptedWhileResolving :
    ((machine ConnectionBase.countingErrors).restrict uncrossed).replay (State.init 0) interruptedWhileResolving =
      some refused ∧ Answered refused ∧ .transportUp ∉ refused.base.log := by
  have hrun : ((machine ConnectionBase.countingErrors).restrict uncrossed).replay (State.init 0)
      interruptedWhileResolving = some refused := rfl
  have hreach : ((machine ConnectionBase.countingErrors).restrict uncrossed).Reachable refused :=
    Machine.Reachable.of_replay ⟨0,rfl⟩ hrun
  obtain ⟨hanswered,hrefused⟩ := interrupt_is_answered hreach (by simp [refused])
  exact ⟨hrun,hanswered.resolve_left (by simp [refused]),(hrefused .operationAborted (by simp [refused])).1⟩

end FmexClient
end BeastWebsocketEcho
