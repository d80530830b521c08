import BeastWebsocketEcho.ChatServerRuns
import Mathlib.Data.Finset.Card

/-!
# The visitors of the chat server

The greeting tells a client how many endpoints the cache holds, so its number counts the
different endpoints that were served since the server was last stopped, not the connections. The
cache refers to the last connection of each of them. A stop that crosses an accept lets one
connection slip through, and not more than one.
-/

namespace BeastWebsocketEcho
namespace ChatServer

section Cache

variable {cache : List (Endpoint × ℕ)} {ep ep' : Endpoint} {i j : ℕ}

theorem mem_assign : (ep',j) ∈ assign cache ep i ↔ (ep' = ep ∧ j = i) ∨ (ep' ≠ ep ∧ (ep',j) ∈ cache) := by
  unfold assign
  split
  · next h =>
    obtain ⟨x,hx,hep⟩ := List.any_eq_true.mp h
    constructor
    · intro hmem
      obtain ⟨y,hy,heq⟩ := List.mem_map.mp hmem
      split at heq
      · exact Or.inl (by simpa [eq_comm] using heq)
      · next hne =>
        subst heq
        exact Or.inr ⟨hne,hy⟩
    · rintro (⟨rfl,rfl⟩ | ⟨hne,hmem⟩)
      · exact List.mem_map.mpr ⟨x,hx,by simp [beq_iff_eq.mp hep]⟩
      · exact List.mem_map.mpr ⟨_,hmem,by simp [hne]⟩
  · next h =>
    have hfresh : ∀ y ∈ cache, y.1 ≠ ep := by
      intro y hy heq
      exact h (List.any_eq_true.mpr ⟨y,hy,beq_iff_eq.mpr heq⟩)
    constructor
    · intro hmem
      rcases List.mem_append.mp hmem with hold | hnew
      · exact Or.inr ⟨hfresh _ hold,hold⟩
      · exact Or.inl (by simpa using hnew)
    · rintro (⟨rfl,rfl⟩ | ⟨hne,hmem⟩)
      · simp
      · exact List.mem_append_left _ hmem

theorem assign_keys (cache : List (Endpoint × ℕ)) (ep : Endpoint) (i : ℕ) :
    (assign cache ep i).map Prod.fst =
      if ep ∈ cache.map Prod.fst then cache.map Prod.fst else cache.map Prod.fst ++ [ep] := by
  have hany : cache.any (fun x => x.1 == ep) = true ↔ ep ∈ cache.map Prod.fst := by simp
  unfold assign
  by_cases h : ep ∈ cache.map Prod.fst
  · rw [if_pos (hany.mpr h),if_pos h,List.map_map]
    apply List.map_congr_left
    intro x _
    by_cases hx : x.1 = ep <;> simp [hx]
  · rw [if_neg fun hcached => h (hany.mp hcached),if_neg h]
    simp

theorem assign_nodup (h : (cache.map Prod.fst).Nodup) : ((assign cache ep i).map Prod.fst).Nodup := by
  rw [assign_keys]
  split
  · exact h
  · next hfresh => exact h.append (List.nodup_singleton ep) (by simpa using hfresh)

theorem assign_toFinset :
    ((assign cache ep i).map Prod.fst).toFinset = insert ep (cache.map Prod.fst).toFinset := by
  rw [assign_keys]
  split
  · next h => exact (Finset.insert_eq_of_mem (List.mem_toFinset.mpr h)).symm
  · rw [List.toFinset_append,Finset.union_comm]
    rfl

end Cache

def visitors (log : List Event) : Finset Endpoint :=
  log.foldl (fun known e => match e with
    | .started _ ep => insert ep known
    | .stopped => ∅) ∅

@[simp] theorem visitors_nil : visitors [] = ∅ := rfl
@[simp] theorem visitors_started (log : List Event) (n : ℕ) (ep : Endpoint) :
    visitors (log ++ [Event.started n ep]) = insert ep (visitors log) := by simp [visitors]
@[simp] theorem visitors_stopped (log : List Event) : visitors (log ++ [Event.stopped]) = ∅ := by simp [visitors]

/-- A connection is greeted with the number of endpoints served since the last stop, its own among them. -/
def Numbered (before : List Event) : Event → Prop
  | .started n ep => n = (insert ep (visitors before)).card
  | .stopped => True

/-- Connection `i` is the last one that was started for the endpoint since the last stop. -/
def Latest (log : List Event) (ep : Endpoint) (i : ℕ) : Prop :=
  ∃ before n after, log = before ++ .started n ep :: after ∧ i = (starts before).length ∧
    .stopped ∉ after ∧ ∀ n', .started n' ep ∉ after

theorem not_latest_nil (ep : Endpoint) (i : ℕ) : ¬ Latest [] ep i := by
  rintro ⟨before,n,after,h,-⟩
  simp at h

theorem not_latest_stopped (log : List Event) (ep : Endpoint) (i : ℕ) : ¬ Latest (log ++ [.stopped]) ep i := by
  rintro ⟨before,n,after,h,-,hstop,-⟩
  rcases Chronicle.split_snoc h with ⟨-,he,-⟩ | ⟨init,rfl,-⟩
  · exact Event.noConfusion he
  · exact hstop (by simp)

theorem latest_started {log : List Event} {n : ℕ} {ep ep' : Endpoint} {i : ℕ} :
    Latest (log ++ [.started n ep]) ep' i ↔ (ep' = ep ∧ i = (starts log).length) ∨ (ep' ≠ ep ∧ Latest log ep' i) := by
  constructor
  · rintro ⟨before,n',after,h,hi,hstop,hlast⟩
    rcases Chronicle.split_snoc h with ⟨rfl,he,rfl⟩ | ⟨init,rfl,hlog⟩
    · obtain ⟨-,hep⟩ := Event.started.inj he
      exact Or.inl ⟨hep,hi⟩
    · have hne : ep' ≠ ep := by
        intro heq
        exact hlast n (by simp [heq])
      have hinit : ∀ e, e ∉ init ++ [Event.started n ep] → e ∉ init := fun e he hmem => he (by simp [hmem])
      exact Or.inr ⟨hne,before,n',init,hlog,hi,hinit _ hstop,fun m => hinit _ (hlast m)⟩
  · rintro (⟨rfl,rfl⟩ | ⟨hne,before,n',after,rfl,hi,hstop,hlast⟩)
    · exact ⟨log,n,[],rfl,rfl,by simp,by simp⟩
    · refine ⟨before,n',after ++ [.started n ep],by simp,hi,by simpa using hstop,fun m hm => ?_⟩
      rcases List.mem_append.mp hm with hm | hm
      · exact hlast m hm
      · exact hne (Event.started.inj (List.mem_singleton.mp hm)).2

/-- What the cache and the greetings have to do with the history of the server. -/
structure Registered (s : State) : Prop where
  count : (starts s.log).length = s.conns.length
  nodup : (s.connections.map Prod.fst).Nodup
  peers : (s.connections.map Prod.fst).toFinset = visitors s.log
  latest : ∀ ep i, (ep,i) ∈ s.connections ↔ Latest s.log ep i
  numbered : Chronicle Numbered s.log

theorem Registered.of_same {s t : State} (h : Registered s) (hlog : t.log = s.log)
    (hcache : t.connections = s.connections) (hconns : t.conns.length = s.conns.length) : Registered t := by
  refine ⟨?_,?_,?_,?_,?_⟩
  · rw [hlog,hconns]
    exact h.count
  · rw [hcache]
    exact h.nodup
  · rw [hcache,hlog]
    exact h.peers
  · rw [hcache,hlog]
    exact h.latest
  · rw [hlog]
    exact h.numbered

theorem Registered.start {s : State} (h : Registered s) (ep : Endpoint) (inl : ChatConnection.Inline) :
    Registered (s.startConnection ep inl) := by
  have hkeys : ((assign s.connections ep s.conns.length).map Prod.fst).toFinset = insert ep (visitors s.log) := by
    rw [assign_toFinset,h.peers]
  have hnodup : ((assign s.connections ep s.conns.length).map Prod.fst).Nodup := assign_nodup h.nodup
  refine ⟨by simp [State.startConnection,h.count],hnodup,?_,fun ep' i => ?_,h.numbered.snoc ?_⟩
  · simpa [State.startConnection] using hkeys
  · simp only [State.startConnection]
    rw [mem_assign,latest_started,h.latest,h.count]
  · have hcard := List.toFinset_card_of_nodup hnodup
    rw [hkeys,List.length_map] at hcard
    exact hcard.symm

theorem Registered.stopped {s : State} (h : Registered s) (expired : List ℕ) (inl : ChatConnection.Inline)
    (hlength : (s.stopAll expired inl).length = s.conns.length) : Registered (s.handleStop expired inl) := by
  refine ⟨?_,List.nodup_nil,?_,fun ep i => ?_,h.numbered.snoc trivial⟩
  · simpa [State.handleStop,hlength] using h.count
  · simp [State.handleStop]
  · exact iff_of_false (by simp [State.handleStop]) (not_latest_stopped _ _ _)

theorem stopAll_length (s : State) (expired : List ℕ) (inl : ChatConnection.Inline) :
    (s.stopAll expired inl).length = s.conns.length := by
  unfold State.stopAll
  generalize s.connections = cache at *
  generalize s.conns = conns at *
  induction cache generalizing conns with
  | nil => rfl
  | cons x cache ih =>
    simp only [List.foldl_cons]
    rw [ih]
    split
    · rfl
    · exact List.length_modify _ _ _

theorem registered_step {s t : State} {a : Action} (h : Registered s) (hstep : Step s a t) : Registered t := by
  cases hstep with
  | start hl => exact h.of_same (by simp) (by simp) (by simp)
  | acceptCompletes status result hl hst => exact h.of_same rfl rfl rfl
  | turned result inl hl => exact h.of_same (by simp) (by simp) (by simp)
  | threw result e inl hl => exact h.of_same rfl rfl rfl
  | accepted ep inl hl => exact (h.start ep inl).of_same (by simp) (by simp) (by simp)
  | stop => exact h.of_same rfl rfl rfl
  | handleStop expired inl =>
    have hless : Registered { s with stops := s.stops - 1 } := h.of_same rfl rfl rfl
    exact hless.stopped expired inl (stopAll_length _ _ _)
  | connection i b c d hcall hc hd => exact h.of_same rfl rfl (by simp)

theorem reachable_registered {s : State} (h : machine.Reachable s) : Registered s := by
  refine h.invariant ?_ ?_
  · rintro s rfl
    exact ⟨rfl,List.nodup_nil,rfl,fun ep i => iff_of_false (by simp [State.init]) (not_latest_nil ep i),Chronicle.nil⟩
  · intro s a t hs ha
    exact registered_step hs (step_cases ha)

/-- What is sent on a connection: the greetings of its start, and behind them what it has read. -/
def Greeted (x : ℕ × Endpoint) (c : ChatConnection.State) : Prop :=
  ChatConnection.sends c.log = greetings x.1 x.2 ++ (ChatState.reads c.chat.log).map String.ofList

/-- `Greeted`, by what `on_message` was called with. -/
def Answering (x : ℕ × Endpoint) (c : ChatConnection.State) : Prop :=
  ChatConnection.sends c.log = greetings x.1 x.2 ++ ChatState.messages c.chat.log

theorem answering_welcome (x : ℕ × Endpoint) (inl : ChatConnection.Inline) : Answering x (welcome x.1 x.2 inl) := by
  obtain ⟨hsends,hmessages⟩ := run_silent inl
  obtain ⟨hgreeted,hchat⟩ := sends_greetings inl (greetings x.1 x.2) (ChatConnection.State.init.run inl)
  unfold Answering welcome
  rw [hgreeted,hchat,hsends,hmessages,List.nil_append,List.append_nil]

theorem Answering.step {x : ℕ × Endpoint} {c d : ChatConnection.State} {a : ChatConnection.Action} (h : Answering x c)
    (hsend : ∀ m inl, a ≠ .send m inl) (hstep : ChatConnection.step c a = some d) : Answering x d :=
  (ChatConnection.step_cases hstep).sends_eq hsend h

theorem reachable_answering {s : State} (h : machine.Reachable s) : List.Forall₂ Answering (starts s.log) s.conns := by
  refine h.invariant (I := fun s => List.Forall₂ Answering (starts s.log) s.conns) ?_ ?_
  · rintro s rfl
    exact List.Forall₂.nil
  · intro s a t hs ha
    refine conns_step (step_cases ha) hs answering_welcome ?_ ?_
    · intro expired inl _
      exact stopAll_forall expired hs fun x c hc => hc.step (a := .stop inl) (by simp) rfl
    · intro i b c d _ hcall _ hd x hx
      apply hx.step _ hd
      rintro m inl rfl
      simp [ChatConnection.Action.isCall] at hcall

/-- In every run of the server the number that a connection is greeted with is that of the endpoints served since the
last stop: the server sends it the greetings of its start, and beside them it is sent what it reads. The cache holds
for each of these endpoints its last connection and nothing else. -/
theorem visitors_are_counted {s : State} (h : machine.Reachable s) :
    Chronicle Numbered s.log ∧ (starts s.log).length = s.conns.length ∧
      (∀ (i : ℕ) (c : ChatConnection.State), s.conns[i]? = some c → ∃ x, (starts s.log)[i]? = some x ∧ Greeted x c) ∧
      s.connections.length = (visitors s.log).card ∧ ∀ ep i, (ep,i) ∈ s.connections ↔ Latest s.log ep i := by
  have hreg := reachable_registered h
  have hcard := List.toFinset_card_of_nodup hreg.nodup
  rw [hreg.peers,List.length_map] at hcard
  refine ⟨hreg.numbered,hreg.count,?_,hcard.symm,hreg.latest⟩
  intro i c hc
  obtain ⟨x,hstart,hanswering⟩ := forall₂_get (reachable_answering h) hc
  have hrelay := ChatState.reachable_relay (ChatConnection.reachable_chat (connection_reachable h hc))
  refine ⟨x,hstart,?_⟩
  unfold Greeted
  rw [← hrelay.messages]
  exact hanswering

/-- The same endpoint twice: the second connection takes the place of the first one, and both are visitor number 1. -/
def visitorReturns : List Action :=
  [.start,.acceptCompletes (.ok (.ok visitor)),.resumeAccept ⟨true,true⟩,.acceptCompletes (.ok (.ok visitor)),
    .resumeAccept ⟨true,true⟩]

theorem visitors_are_counted_visitorReturns :
    ∃ s c, machine.replay State.init visitorReturns = some s ∧ s.log = [.started 1 visitor,.started 1 visitor] ∧
      s.connections = [(visitor,1)] ∧ s.connections.length = (visitors s.log).card ∧ s.conns[1]? = some c ∧
        Greeted (1,visitor) c := by
  have hrun : machine.replay State.init visitorReturns = some _ := rfl
  obtain ⟨-,-,hgreeted,hcount,-⟩ := visitors_are_counted (Machine.Reachable.of_replay rfl hrun)
  obtain ⟨x,hstart,hgreeted⟩ := hgreeted 1 _ rfl
  obtain rfl : (1,visitor) = x := Option.some.inj hstart
  exact ⟨_,_,rfl,rfl,rfl,hcount,rfl,hgreeted⟩

/-- What was logged after the first stop. -/
def late (log : List Event) : List (ℕ × Endpoint) := starts (log.dropWhile (fun e => decide (e ≠ .stopped)))

theorem late_snoc {log : List Event} {e : Event} :
    late (log ++ [e]) = late log ++ if .stopped ∈ log then e.started?.toList else [] := by
  unfold late
  induction log with
  | nil => cases e <;> rfl
  | cons f log ih =>
    cases f with
    | stopped => simp
    | started n ep => simpa using ih

theorem late_of_split {before after : List Event} :
    (starts after).length ≤ (late (before ++ .stopped :: after)).length := by
  unfold late
  induction before with
  | nil => simp
  | cons f before ih =>
    cases f with
    | stopped => simp
    | started n ep => simpa using ih

/-- How many connections the accept loop can still start without another accept. -/
def Loop.room (loop : Loop) : ℕ := if loop.barred then 0 else 1

theorem Loop.room_le (loop : Loop) : loop.room ≤ 1 := by unfold Loop.room; split <;> omega
theorem Loop.room_eq_zero_iff {loop : Loop} : loop.room = 0 ↔ loop.barred = true := by simp [Loop.room]

/-- Behind a stop at most one connection starts, the one whose accept had succeeded before it. -/
structure Lingers (s : State) : Prop where
  ec : .stopped ∈ s.log → s.ec.isSome = true
  early : .stopped ∉ s.log → late s.log = []
  last : .stopped ∈ s.log → (late s.log).length + s.loop.room ≤ 1

theorem Lingers.turn {s : State} (hec : .stopped ∈ s.log → s.ec.isSome = true)
    (hearly : .stopped ∉ s.log → late s.log = [])
    (hlast : .stopped ∈ s.log → (late s.log).length ≤ 1) : Lingers s.turn := by
  refine ⟨by simpa using hec,by simpa using hearly,fun hs => ?_⟩
  rw [turn_log] at hs
  simpa [State.turn,hec hs,Loop.room,Loop.barred] using hlast hs

theorem cancel_barred (loop : Loop) (h : loop.barred = true) : loop.cancel.barred = true := by
  cases loop with
  | accepting status =>
    cases status with
    | pending => rfl
    | cancelled => rfl
    | done result => exact h
  | notStarted => rfl
  | returned => rfl
  | threw e => rfl

theorem lingers_step {s t : State} {a : Action} (h : Lingers s) (hstep : Step s a t) : Lingers t := by
  have hlen : .stopped ∈ s.log → (late s.log).length ≤ 1 := fun hs => (Nat.le_add_right _ _).trans (h.last hs)
  cases hstep with
  | start hl => exact Lingers.turn h.ec h.early hlen
  | turned result inl hl => exact Lingers.turn h.ec h.early hlen
  | threw result e inl hl => exact ⟨h.ec,h.early,fun hs => by simpa [Loop.room,Loop.barred] using hlen hs⟩
  | stop => exact ⟨h.ec,h.early,h.last⟩
  | connection i b c d hcall hc hd => exact ⟨h.ec,h.early,h.last⟩
  | acceptCompletes status result hl hst =>
    refine ⟨h.ec,h.early,fun hs => ?_⟩
    have hlast := h.last hs
    rcases hst with rfl | ⟨rfl,hfailed⟩
    · -- An accept that is pending behind a stop leaves room for no connection yet.
      have hzero : (late s.log).length = 0 := by simpa [hl,Loop.room,Loop.barred] using hlast
      simpa [hzero] using Loop.room_le _
    · cases result with
      | ok r => simp [acceptFailed] at hfailed
      | error e => simpa [Loop.room,Loop.barred] using hlen hs
  | accepted ep inl hl =>
    refine Lingers.turn ?_ ?_ ?_
    · simpa [State.startConnection] using h.ec
    · intro hnot
      have hbefore : .stopped ∉ s.log := by simpa [State.startConnection] using hnot
      simp [State.startConnection,late_snoc,hbefore,h.early hbefore]
    · intro hs
      have hbefore : .stopped ∈ s.log := by simpa [State.startConnection] using hs
      have hzero : (late s.log).length = 0 := by simpa [hl,Loop.room,Loop.barred] using h.last hbefore
      simp [State.startConnection,late_snoc,hbefore,hzero]
  | handleStop expired inl =>
    refine ⟨fun _ => rfl,by simp [State.handleStop],fun _ => ?_⟩
    have hlog : late (s.log ++ [.stopped]) = late s.log := by simp [late_snoc]
    simp only [State.handleStop,hlog]
    by_cases hs : .stopped ∈ s.log
    · by_cases hbarred : s.loop.barred = true
      · simpa [Loop.room_eq_zero_iff.mpr (cancel_barred _ hbarred)] using hlen hs
      · have hlast := h.last hs
        have hroom := mt Loop.room_eq_zero_iff.mp hbarred
        have hzero : (late s.log).length = 0 := by omega
        simpa [hzero] using Loop.room_le _
    · simpa [h.early hs] using Loop.room_le _

/-- However many stops run, and wherever they cross the accept loop: behind the first of them at most one connection
is started, and once it is, the loop starts no other. -/
theorem stop_lets_one_slip {s : State} (h : machine.Reachable s) {before after : List Event}
    (hlog : s.log = before ++ .stopped :: after) :
    (starts after).length ≤ 1 ∧ (starts after ≠ [] → s.loop.barred = true) := by
  have hlingers : Lingers s := by
    refine h.invariant ?_ ?_
    · rintro s rfl
      exact ⟨by simp [State.init],fun _ => rfl,by simp [State.init]⟩
    · intro s a t hs ha
      exact lingers_step hs (step_cases ha)
  have hlast := hlingers.last (by simp [hlog])
  have hle : (starts after).length ≤ (late s.log).length := by
    rw [hlog]
    exact late_of_split
  refine ⟨by omega,fun hne => ?_⟩
  have hpos := List.length_pos_of_ne_nil hne
  exact Loop.room_eq_zero_iff.mp (by omega)

theorem stop_lets_one_slip_stopCrossesAccept :
    ∃ s, machine.replay State.init stopCrossesAccept = some s ∧ s.log = [.stopped,.started 1 visitor] ∧
      (starts [.started 1 visitor]).length ≤ 1 ∧ s.loop.barred = true := by
  have hrun : machine.replay State.init stopCrossesAccept = some _ := rfl
  have hlog : ([.stopped,.started 1 visitor] : List Event) = [] ++ .stopped :: [.started 1 visitor] := rfl
  have hslip := stop_lets_one_slip (Machine.Reachable.of_replay rfl hrun) hlog
  exact ⟨_,rfl,rfl,hslip.1,hslip.2 (by simp)⟩

end ChatServer
end BeastWebsocketEcho
