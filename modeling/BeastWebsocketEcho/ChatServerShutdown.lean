import BeastWebsocketEcho.ChatConnectionHalt
import BeastWebsocketEcho.ChatServerVisitors

/-!
# What a stop of the chat server reaches

A stop reaches the last connection of every endpoint that was served since the stop before, unless
that connection has ended by itself. A connection that was reached comes to its end when nothing is
left for it to do, except where its `run_state` had ended before and left the transmit loop behind.
-/

namespace BeastWebsocketEcho
namespace ChatState

variable {s t : State} {cs : List Call}

def Run.Over : Run → Prop
  | .returned | .threw _ => True
  | .notStarted | .accepting | .receiving _ => False

theorem Step.notified (h : Step s t cs) (hne : notifications s.log ≠ []) : notifications t.log ≠ [] := by
  cases h <;> simp [hne]

theorem notify_notified (s : State) (nec : Error) : notifications (s.notify nec).1.log ≠ [] := by
  cases hec : s.base.ec <;> cases hs : s.base.state <;>
    simp [State.notify,notifyError,State.performAll,State.perform,State.carry,hec,hs]

/-- Nothing resumes a `run_state` that has ended. -/
theorem Step.over (h : Step s t cs) (ho : s.run.Over) : t.run.Over := by
  cases h with
  | start hr => simp [hr,Run.Over] at ho
  | acceptThrows result e hr => trivial
  | connected hr => simp [hr,Run.Over] at ho
  | received rxbuffer bytes hr => simp [hr,Run.Over] at ho
  | readEnds rxbuffer hr => trivial
  | _ => exact ho

def Early (log : List Event) : Prop :=
  (notifications log).head?.map Prod.snd = some .initialState ∨
    (notifications log).head?.map Prod.snd = some .handshaking

theorem Early.of_append {l k : List Event} (h : Early (l ++ k)) (hne : notifications l ≠ []) : Early l := by
  simpa [Early,List.head?_append_of_ne_nil _ hne] using h

theorem Outcome.connects_eq_zero (h : Outcome s) (hs : s.run.stage = .initialState ∨ s.run.stage = .handshaking) :
    connects s.log = 0 := by
  unfold Outcome at h
  cases hr : s.run <;> simp_all [Run.stage]

theorem early_step (hreg : Regular s) (h : Early s.log → connects s.log = 0) (hstep : Step s t cs) :
    Early t.log → connects t.log = 0 := by
  have hconnects := connects_of_calls _ _ hstep.calls_eq
  intro hearly
  cases hstep with
  | connected hr he =>
    have hnone : notifications s.log = [] := by simpa [he] using hreg.ec.symm
    simp [Early,hnone] at hearly
  | again nec he =>
    have hne : notifications s.log ≠ [] := by
      intro hnil
      simp [hreg.ec,hnil] at he
    rw [hconnects]
    simpa using h (hearly.of_append hne)
  | aside nec he hs =>
    have hnone : notifications s.log = [] := by simpa [he] using hreg.ec.symm
    have hstage : s.run.stage = .initialState ∨ s.run.stage = .handshaking := by
      rw [← hreg.stage]
      simpa [Early,hnone] using hearly
    rw [hconnects]
    exact hreg.outcome.connects_eq_zero hstage
  | cancels nec he hs =>
    have hstage : s.run.stage = .handshaking := by rw [← hreg.stage,hs]
    rw [hconnects]
    exact hreg.outcome.connects_eq_zero (Or.inr hstage)
  | closes nec he hs =>
    have hnone : notifications s.log = [] := by simpa [he] using hreg.ec.symm
    simp [Early,hnone] at hearly
  | start hr =>
    rw [hconnects]
    simpa using h (by simpa [Early] using hearly)
  | acceptCompletes st => exact h hearly
  | acceptThrows result e hr he =>
    rw [hconnects]
    simpa using h (by simpa [Early] using hearly)
  | readCompletes st => exact h hearly
  | received rxbuffer bytes hr =>
    rw [hconnects]
    simpa using h (by simpa [Early] using hearly)
  | readEnds rxbuffer hr => exact h hearly
  | closeCompletes => exact h hearly

theorem connects_of_early (h : machine.Reachable s) (hearly : Early s.log) : connects s.log = 0 :=
  reachable_invariant (I := fun s => Early s.log → connects s.log = 0) (fun _ => rfl)
    (fun _ _ _ hr hi hstep => early_step (reachable_regular hr) hi hstep) h hearly

end ChatState

namespace ChatConnection

variable {s t : State}

def Told (s : State) : Prop := 0 < s.stops ∨ ChatState.notifications s.chat.log ≠ []

def Gone (s : State) : Prop := s.chat.run.Over ∧ (s.tx = .unspawned ∨ s.tx.Ended)

theorem Gone.txGone (h : Gone s) : TxGone s := by
  refine ⟨fun hpopping => ?_,h.2⟩
  have htx := h.2
  simp [hpopping,Tx.Ended] at htx

theorem perform_same (s : State) (inl : Inline) (c : ChatState.Call) :
    (s.perform inl c).chat = s.chat ∧ (s.perform inl c).stops = s.stops := by
  cases c with
  | onConnected => cases hspawn : inl.spawn <;> simp [State.perform,State.onConnect,State.awaitPop,hspawn]
  | _ => exact ⟨rfl,rfl⟩

theorem follow_same (s : State) (inl : Inline) (r : ChatState.State × List ChatState.Call) :
    (s.follow inl r).chat = r.1 ∧ (s.follow inl r).stops = s.stops := by
  have hfold (cs : List ChatState.Call) (u : State) : (cs.foldl (fun u c => u.perform inl c) u).chat = u.chat ∧
      (cs.foldl (fun u c => u.perform inl c) u).stops = u.stops := by
    induction cs generalizing u with
    | nil => exact ⟨rfl,rfl⟩
    | cons c cs ih =>
      obtain ⟨hchat,hstops⟩ := perform_same u inl c
      rw [List.foldl_cons,(ih _).1,(ih _).2]
      exact ⟨hchat,hstops⟩
  exact hfold r.2 { s with chat := r.1 }

theorem told_notifyError (s : State) (inl : Inline) : Told (s.notifyError inl) := by
  apply Or.inr
  rw [State.notifyError,(follow_same s inl _).1]
  exact ChatState.notify_notified s.chat .operationAborted

theorem told_stop (s : State) (inl : Inline) : Told (s.stop inl) := by
  unfold State.stop
  split
  · exact told_notifyError s inl
  · exact Or.inl (Nat.succ_pos _)

/-- What was told to stop stays so: the coroutine that `stop` has spawned notifies when it begins. -/
theorem told_step {a : Action} (h : Told s) (hstep : step s a = some t) : Told t := by
  have hframe (u : State) (hchat : u.chat = s.chat) (hstops : u.stops = s.stops) : Told u := by
    rw [Told,hchat,hstops]
    exact h
  cases a with
  | chat a inl =>
    obtain ⟨⟨c,cs⟩,hc,rfl⟩ := Option.map_eq_some_iff.mp hstep
    obtain ⟨hchat,hstops⟩ := follow_same s inl (c,cs)
    rw [Told,hchat,hstops]
    exact h.imp id (ChatState.step_cases hc).notified
  | send m inl =>
    obtain rfl := Option.some.inj hstep
    exact h
  | stop inl =>
    obtain rfl := Option.some.inj hstep
    exact told_stop s inl
  | startStop inl =>
    obtain ⟨-,hok⟩ := Option.ite_none_right_eq_some.mp hstep
    obtain rfl := Option.some.inj hok
    exact told_notifyError _ inl
  | runTask i =>
    obtain ⟨q,-,rfl⟩ := Option.map_eq_some_iff.mp hstep
    exact h
  | startTx inl =>
    obtain ⟨-,hok⟩ := Option.ite_none_right_eq_some.mp hstep
    obtain rfl := Option.some.inj hok
    exact h
  | resumePop i =>
    obtain ⟨c,-,hinvoke⟩ := Option.bind_eq_some_iff.mp hstep
    obtain ⟨q,-,rfl⟩ := Option.map_eq_some_iff.mp hinvoke
    cases hec : c.ec <;> exact h
  | writeCompletes result =>
    simp only [step] at hstep
    split at hstep
    · obtain ⟨st,-,rfl⟩ := Option.map_eq_some_iff.mp hstep
      exact h
    · exact absurd hstep (by simp)
  | resumeWrite inl =>
    simp only [step] at hstep
    split at hstep
    · next m result htx =>
      obtain rfl := Option.some.inj hstep
      cases result <;> exact h
    · exact absurd hstep (by simp)

theorem gone_step {a : Action} (hw : Wired s) (h : Gone s) (hstep : step s a = some t) : Gone t := by
  obtain ⟨hover,htx⟩ := h
  have hchat {a : ChatState.Action} {c : ChatState.State} {cs : List ChatState.Call}
      (hc : ChatState.step s.chat a = some (c,cs)) : c.run.Over := (ChatState.step_cases hc).over hover
  cases step_cases hstep with
  | quiet a c cs n hc => exact ⟨hchat hc,htx⟩
  | connected a c n hc =>
    cases ChatState.step_cases hc with
    | connected hr he => simp [hr,ChatState.Run.Over] at hover
  | message a c m n hc => exact ⟨hchat hc,htx⟩
  | halted a c cs tx n hc hcs =>
    refine ⟨hchat hc,?_⟩
    rcases hcs with ⟨-,rfl⟩ | ⟨-,rfl⟩
    · simpa using htx
    · exact htx
  | stop inl => exact ⟨hover,htx⟩
  | send m inl => exact ⟨hover,htx⟩
  | task i q hq => exact ⟨hover,htx⟩
  | txStarts inl hspawned => simp [hspawned,Tx.Ended] at htx
  | popped i c hc => simp [hw.popping_of_posted hc,Tx.Ended] at htx
  | writeCompletes m st st' result hwriting => simp [hwriting,Tx.Ended] at htx
  | written m result inl hwriting => simp [hwriting,Tx.Ended] at htx

def EndedFirst (log : List ChatState.Event) : Prop :=
  (ChatState.notifications log).head?.map Prod.snd = some .exitState

/-- A chat that was told to stop before its end takes the transmit loop with it. -/
theorem gone_of_told (h : machine.Reachable s) (hq : Quiescent s) (ht : Told s) : TxGone s ∨ EndedFirst s.chat.log := by
  have hw := reachable_wired h
  have hnotified : ChatState.notifications s.chat.log ≠ [] := ht.resolve_left (by simp [hq.stops])
  obtain ⟨⟨nec,stage⟩,hhead⟩ := Option.ne_none_iff_exists'.mp (mt List.head?_eq_none_iff.mp hnotified)
  have hstage : (ChatState.notifications s.chat.log).head?.map Prod.snd = some stage := by simp [hhead]
  have hearly (hearly : ChatState.Early s.chat.log) : TxGone s ∨ EndedFirst s.chat.log := by
    have hunspawned : s.tx = .unspawned := hw.started.mpr (ChatState.connects_of_early (reachable_chat h) hearly)
    exact Or.inl ⟨by simp [hunspawned],Or.inl hunspawned⟩
  cases stage with
  | initialState => exact hearly (Or.inl hstage)
  | handshaking => exact hearly (Or.inr hstage)
  | exitState => exact Or.inr hstage
  | chatting =>
    have hhalt := reachable_halting h
    have hway := ChatState.reachable_wayOut (reachable_chat h)
    have hcloses := hway.closed.mpr hstage
    have hstops : 0 < ChatState.queueStops s.chat.log := by
      have hsum := hway.stops
      omega
    have hstopped : .stopped ∈ s.queue.log := (hhalt.due.mpr hstops).resolve_left (by simp [hq.tasks])
    exact Or.inl (hq.gone_iff.mpr (hq.not_popping hw hhalt hstopped))

end ChatConnection

namespace ChatServer

open ChatConnection (Told Gone EndedFirst told_stop told_step gone_step gone_of_told)

variable {s t : State}

/-- A stop stops what the cache refers to, unless it has expired, and leaves the other connections alone. -/
theorem stopAll_get (s : State) (expired : List ℕ) (inl : ChatConnection.Inline) {i : ℕ} {c : ChatConnection.State}
    (hc : s.conns[i]? = some c) : ∃ d, (s.stopAll expired inl)[i]? = some d ∧
      (Told d ∨ d = c ∧ ∀ ep, (ep,i) ∈ s.connections → i ∈ expired) := by
  unfold State.stopAll
  generalize s.connections = cache
  generalize s.conns = conns at *
  induction cache generalizing conns c with
  | nil => exact ⟨c,hc,Or.inr ⟨rfl,by simp⟩⟩
  | cons x cache ih =>
    obtain ⟨ep,j⟩ := x
    rw [List.foldl_cons]
    by_cases hj : j ∈ expired
    · rw [if_pos hj]
      obtain ⟨d,hd,htold | ⟨rfl,hrest⟩⟩ := ih conns hc
      · exact ⟨d,hd,Or.inl htold⟩
      · refine ⟨d,hd,Or.inr ⟨rfl,fun ep' hmem => ?_⟩⟩
        rcases List.mem_cons.mp hmem with hfirst | hlater
        · simpa [(Prod.mk.inj hfirst).2] using hj
        · exact hrest ep' hlater
    · rw [if_neg hj]
      by_cases hij : j = i
      · subst hij
        obtain ⟨d,hd,htold | ⟨rfl,-⟩⟩ := ih (conns.modify j fun c => c.stop inl) (c := c.stop inl) (by simp [hc])
        · exact ⟨d,hd,Or.inl htold⟩
        · exact ⟨_,hd,Or.inl (told_stop c inl)⟩
      · obtain ⟨d,hd,htold | ⟨rfl,hrest⟩⟩ := ih (conns.modify j fun c => c.stop inl) (c := c) (by simp [hc,hij])
        · exact ⟨d,hd,Or.inl htold⟩
        · refine ⟨d,hd,Or.inr ⟨rfl,fun ep' hmem => ?_⟩⟩
          rcases List.mem_cons.mp hmem with hfirst | hlater
          · exact absurd (Prod.mk.inj hfirst).2.symm hij
          · exact hrest ep' hlater

theorem Latest.lt {log : List Event} {ep : Endpoint} {i : ℕ} (h : Latest log ep i) : i < (starts log).length := by
  obtain ⟨before,n,after,rfl,rfl,-⟩ := h
  simp

theorem cancel_not_pending (loop : Loop) : loop.cancel ≠ .accepting .pending := by
  cases loop with
  | accepting status => cases status <;> simp [Loop.cancel,Status.cancel]
  | _ => simp [Loop.cancel]

theorem gone_of_finished {c : ChatConnection.State} (h : finished c = true) : Gone c := by
  simp only [finished,Bool.and_eq_true] at h
  obtain ⟨⟨⟨hrun,htx⟩,-⟩,-⟩ := h
  constructor
  · cases hr : c.chat.run <;> simp [hr] at hrun <;> trivial
  · cases hr : c.tx <;> simp [hr,ChatConnection.Tx.Ended] at htx ⊢

/-- When the server is stopped, the last connection of every endpoint was told to stop, or had ended. -/
def Covered (conns : List ChatConnection.State) (before : List Event) (e : Event) : Prop :=
  e = .stopped → ∀ ep i, Latest before ep i → ∃ c, conns[i]? = some c ∧ (Told c ∨ Gone c)

theorem Covered.mono {conns conns' : List ChatConnection.State} {before : List Event} {e : Event}
    (hkept : ∀ (i : ℕ) (c : ChatConnection.State), conns[i]? = some c → Told c ∨ Gone c →
      ∃ d, conns'[i]? = some d ∧ (Told d ∨ Gone d))
    (h : Covered conns before e) : Covered conns' before e := by
  intro he ep i hlatest
  obtain ⟨c,hc,hold⟩ := h he ep i hlatest
  exact hkept i c hc hold

/-- Behind a stop nobody waits for a client, and all stops so far have reached their connections. -/
structure Stopping (s : State) : Prop where
  ec : .stopped ∈ s.log → s.ec.isSome = true
  loop : .stopped ∈ s.log → s.loop ≠ .accepting .pending
  covered : Chronicle (Covered s.conns) s.log

theorem Stopping.turn (hec : .stopped ∈ s.log → s.ec.isSome = true) (hcovered : Chronicle (Covered s.conns) s.log) :
    Stopping s.turn := by
  refine ⟨by simpa using hec,fun hs => ?_,by simpa using hcovered⟩
  rw [turn_log] at hs
  simp [State.turn,hec hs]

theorem stopping_step (hr : machine.Reachable s) (h : Stopping s) {a : Action} (hstep : step s a = some t) :
    Stopping t := by
  cases step_cases hstep with
  | start hl => exact Stopping.turn h.ec h.covered
  | turned result inl hl => exact Stopping.turn h.ec h.covered
  | acceptCompletes status result hl hst => exact ⟨h.ec,by simp,h.covered⟩
  | threw result e inl hl => exact ⟨h.ec,by simp,h.covered⟩
  | stop => exact ⟨h.ec,h.loop,h.covered⟩
  | accepted ep inl hl =>
    apply Stopping.turn
    · simpa [State.startConnection] using h.ec
    · refine Chronicle.snoc (h.covered.mono fun before e => Covered.mono fun i c hc hold =>
        ⟨c,?_,hold⟩) (by simp [Covered])
      exact (List.getElem?_append_left (List.getElem?_eq_some_iff.mp hc).1).trans hc
  | connection i b c d hcall hc hd =>
    refine ⟨h.ec,h.loop,h.covered.mono fun before e => Covered.mono fun j c' hc' hold => ?_⟩
    have hw := ChatConnection.reachable_wired (connection_reachable hr hc)
    by_cases hij : i = j
    · subst hij
      obtain rfl := Option.some.inj (hc.symm.trans hc')
      refine ⟨d,by simp [(List.getElem?_eq_some_iff.mp hc).1],?_⟩
      exact hold.imp (fun htold => told_step htold hd) fun hgone => gone_step hw hgone hd
    · exact ⟨c',by simpa [hij] using hc',hold⟩
  | handleStop expired inl =>
    have hguard : expired.all (fun i => (s.conns[i]?).any finished) = true := by
      simp only [step] at hstep
      split at hstep
      · next hok => exact hok.2
      · exact absurd hstep (by simp)
    refine ⟨fun _ => rfl,fun _ => cancel_not_pending s.loop,?_⟩
    refine Chronicle.snoc (h.covered.mono fun before e => Covered.mono fun i c hc hold => ?_) fun _ ep i hlatest => ?_
    · obtain ⟨d,hd,htold | ⟨rfl,-⟩⟩ := stopAll_get s expired inl hc
      · exact ⟨d,hd,Or.inl htold⟩
      · exact ⟨d,hd,hold⟩
    · have hreg := reachable_registered hr
      have hcached : (ep,i) ∈ s.connections := (hreg.latest ep i).mpr hlatest
      have hlt : i < s.conns.length := by
        rw [← hreg.count]
        exact hlatest.lt
      obtain ⟨d,hd,htold | ⟨rfl,hexpired⟩⟩ := stopAll_get s expired inl (List.getElem?_eq_getElem hlt)
      · exact ⟨d,hd,Or.inl htold⟩
      · have hfinished := List.all_eq_true.mp hguard i (hexpired ep hcached)
        rw [List.getElem?_eq_getElem hlt] at hfinished
        exact ⟨_,hd,Or.inr (gone_of_finished hfinished)⟩

theorem reachable_stopping (h : machine.Reachable s) : Stopping s := by
  refine h.invariant_reachable ?_ fun s a t hr hi hstep => stopping_step hr hi hstep
  rintro s rfl
  exact ⟨by simp [State.init],by simp [State.init],Chronicle.nil⟩

/-- A stop of the server ends the accept loop with its next turn, and reaches the last connection of every endpoint that
was served since the stop before. When such a connection has nothing left to run, its transmit loop is gone, unless the
chat had ended before it was told to stop. -/
theorem stop_reaches_visitors (h : machine.Reachable s) {before after : List Event}
    (hlog : s.log = before ++ .stopped :: after) :
    s.ec.isSome = true ∧ s.loop ≠ .accepting .pending ∧
      ∀ ep i, Latest before ep i → ∃ c, s.conns[i]? = some c ∧ (Told c ∨ Gone c) ∧
        (ChatConnection.Quiescent c → ChatConnection.TxGone c ∨ EndedFirst c.chat.log) := by
  have hstopping := reachable_stopping h
  have hstopped : .stopped ∈ s.log := by simp [hlog]
  refine ⟨hstopping.ec hstopped,hstopping.loop hstopped,fun ep i hlatest => ?_⟩
  obtain ⟨c,hc,hold⟩ := hstopping.covered before .stopped after hlog rfl ep i hlatest
  refine ⟨c,hc,hold,fun hq => ?_⟩
  rcases hold with htold | hgone
  · exact gone_of_told (connection_reachable h hc) hq htold
  · exact Or.inl hgone.txGone

def stopBeforeHandshake : List Action :=
  [.start,.acceptCompletes (.ok (.ok visitor)),.resumeAccept ⟨true,true⟩,.stop,.handleStop [] ⟨true,true⟩,
    .connection 0 (.chat (.acceptCompletes (some .operationAborted)) ⟨true,true⟩),
    .connection 0 (.chat .resumeAccept ⟨true,true⟩)]

theorem stop_reaches_visitors_stopBeforeHandshake : ∃ s c, machine.replay State.init stopBeforeHandshake = some s ∧
    s.log = [.started 1 visitor] ++ .stopped :: [] ∧ s.conns[0]? = some c ∧ ChatConnection.Quiescent c ∧
      (ChatConnection.TxGone c ∨ EndedFirst c.chat.log) := by
  have hrun : machine.replay State.init stopBeforeHandshake = some _ := rfl
  have hlatest : Latest [.started 1 visitor] visitor 0 := ⟨[],1,[],rfl,rfl,by simp,by simp⟩
  obtain ⟨-,-,hreached⟩ := stop_reaches_visitors (Machine.Reachable.of_replay rfl hrun)
    (show _ = [Event.started 1 visitor] ++ .stopped :: [] from rfl)
  obtain ⟨c,hc,-,hgone⟩ := hreached visitor 0 hlatest
  have hquiescent : ChatConnection.Quiescent c := by
    obtain rfl := Option.some.inj hc
    exact ⟨rfl,rfl,rfl,rfl,rfl,rfl,rfl⟩
  exact ⟨_,c,hrun,rfl,hc,hquiescent,hgone hquiescent⟩

end ChatServer
end BeastWebsocketEcho
