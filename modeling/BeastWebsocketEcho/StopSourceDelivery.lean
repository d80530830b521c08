import BeastWebsocketEcho.StopSourceRuns

/-!
# Every slot runs once

The first `stop` finds all slots that are connected and not disconnected, and its loop runs
them all before it ends; whatever is connected later runs inside `connect`. Ids are given out
until then, as long as `connect` is called less than `2 ^ 64 - 1` times.
-/

namespace BeastWebsocketEcho
namespace StopSource

def Called (log : List Event) : Prop := ∃ k, .stopBegan k ∈ log

/-- `P` held of the log when the first `stop` began. -/
def AtFirstStop (P : List Event → Prop) (log : List Event) : Prop :=
  ∃ before k after, log = before ++ .stopBegan k :: after ∧ ¬ Called before ∧ P before

/-- Connected before the first `stop`, and not disconnected before it. -/
def Due (log : List Event) (n : ℕ) : Prop :=
  AtFirstStop (fun before => .connected n ∈ before ∧ ∀ removed, .disconnected n removed ∉ before) log

def Spared (log : List Event) (n : ℕ) : Prop :=
  AtFirstStop (fun before => ∃ removed, .disconnected n removed ∈ before) log

section Phases

variable {P : List Event → Prop} {log k : List Event} {e : Event}

theorem called_append_left (h : Called log) : Called (log ++ k) := by
  obtain ⟨j,hj⟩ := h
  exact ⟨j,List.mem_append_left _ hj⟩

theorem called_append_iff (hk : ∀ e ∈ k, ∀ j, e ≠ .stopBegan j) : Called (log ++ k) ↔ Called log := by
  constructor
  · rintro ⟨j,hj⟩
    rcases List.mem_append.mp hj with hj | hj
    · exact ⟨j,hj⟩
    · exact absurd rfl (hk _ hj j)
  · exact called_append_left

theorem AtFirstStop.called (h : AtFirstStop P log) : Called log := by
  obtain ⟨before,j,after,rfl,-,-⟩ := h
  exact ⟨j,by simp⟩

/-- After the first `stop` has begun, what held then does not change. -/
theorem AtFirstStop.of_append (hlog : Called log) (h : AtFirstStop P (log ++ k)) : AtFirstStop P log := by
  induction k using List.reverseRecOn with
  | nil => simpa using h
  | append_singleton k e ih =>
    apply ih
    obtain ⟨before,j,after,heq,hbefore,hP⟩ := h
    rw [← List.append_assoc] at heq
    rcases Chronicle.split_snoc heq with ⟨rfl,-,-⟩ | ⟨init,-,hinit⟩
    · exact absurd (called_append_left hlog) hbefore
    · exact ⟨before,j,init,hinit,hbefore,hP⟩

theorem AtFirstStop.of_stop {j : ℕ} (hlog : ¬ Called log) (h : AtFirstStop P (log ++ [Event.stopBegan j])) : P log := by
  obtain ⟨before,i,after,heq,hbefore,hP⟩ := h
  rcases Chronicle.split_snoc heq with ⟨rfl,-,-⟩ | ⟨init,-,rfl⟩
  · exact hP
  · exact absurd ⟨i,by simp⟩ hlog

end Phases

/-- What the log says of an event together with the events before it. -/
structure Law (before : List Event) (e : Event) : Prop where
  invoked : ∀ n, e = .invoked n → Called before
  first : ∀ k, e = .stopBegan k → (k = 0 ↔ ¬ Called before)
  ended : e = .stopEnded 0 → Called before ∧ ∀ n, Due before n → .invoked n ∈ before
  own : ∀ n removed, e = .disconnected n removed → ∀ m ∈ removed, m = n

/-- A slot that is connected after `stop` was called runs at once. -/
def Prompt (log : List Event) : Prop :=
  ∀ before n after, log = before ++ .connected n :: after → Called before → ∃ rest, after = .invoked n :: rest

theorem Prompt.append {log k : List Event} (h : Prompt log) (hk : ∀ e ∈ k, ∀ n, e ≠ .connected n) :
    Prompt (log ++ k) := by
  refine append_induction h k fun l e he hl => ?_
  intro before n after heq hcalled
  rcases Chronicle.split_snoc heq with ⟨-,rfl,-⟩ | ⟨init,rfl,hinit⟩
  · exact absurd rfl (hk _ he n)
  · obtain ⟨rest,rfl⟩ := hl before n init hinit hcalled
    exact ⟨rest ++ [e],rfl⟩

/-- Before the first `stop`: nothing runs, and every slot is filed or was disconnected. -/
structure Filing (s : State) : Prop where
  stops : s.stops = 0
  nextId : s.impl.nextId ≠ stoppedValue
  frames : s.frames = []
  invoked : ∀ n, .invoked n ∉ s.log
  kept : ∀ n, .connected n ∈ s.log → (∀ removed, .disconnected n removed ∉ s.log) → n ∈ s.impl.slots.map Prod.snd
  removed : ∀ n removed, .disconnected n removed ∈ s.log → n < s.connects ∧ n ∉ s.impl.slots.map Prod.snd
  detached : ∀ c ∈ s.connections, c.attached = false → ∃ removed, .disconnected c.slot removed ∈ s.log

/-- The loop of the first `stop` is the outermost call, and the others have nothing to run; or nothing waits. -/
def Loop (frames : List (Frame ℕ Caller)) : Prop :=
  (∃ inner rest, frames = inner ++ [.batch 0 rest] ∧ waiting inner = [] ∧ ∀ k rest', .batch k rest' ∈ inner → k ≠ 0) ∨
    waiting frames = []

/-- After the first `stop` has begun: what was connected before waits in its loop, or has run. -/
structure Running (s : State) : Prop where
  stops : s.stops ≠ 0
  nextId : s.impl.nextId = stoppedValue
  slots : s.impl.slots = []
  loop : Loop s.frames
  due : ∀ n, Due s.log n → n ∈ waiting s.frames ∨ .invoked n ∈ s.log
  spared : ∀ n, Spared s.log n → n < s.connects ∧ n ∉ waiting s.frames ∧ .invoked n ∉ s.log

structure Delivery (s : State) : Prop where
  filing : ¬ Called s.log → Filing s
  running : Called s.log → Running s
  prompt : Prompt s.log
  order : Chronicle Law s.log

/-- Only new connections and new `stop`s are looked at. -/
theorem Law.of_other {before : List Event} {e : Event} (hinvoked : ∀ n, e ≠ .invoked n)
    (hfirst : ∀ k, e ≠ .stopBegan k) (hended : e ≠ .stopEnded 0) (hown : ∀ n removed, e ≠ .disconnected n removed) :
    Law before e :=
  ⟨fun n he => absurd he (hinvoked n),fun k he => absurd he (hfirst k),fun he => absurd he hended,
    fun n removed he => absurd he (hown n removed)⟩

theorem Law.disconnected {before : List Event} {n : ℕ} {removed : List ℕ} (h : ∀ m ∈ removed, m = n) :
    Law before (.disconnected n removed) := by
  refine ⟨by simp,by simp,by simp,?_⟩
  rintro n' removed' he
  obtain ⟨rfl,rfl⟩ : n = n' ∧ removed = removed' := by simpa using he
  exact h

theorem Law.invoked_of_called {before : List Event} {n : ℕ} (h : Called before) : Law before (.invoked n) :=
  ⟨fun _ _ => h,by simp,by simp,by simp⟩

/-- Before the first `stop` a step files a slot or disconnects one. -/
theorem filing_file {s : State} (ha : Account s) (h : Filing s) (hbound : s.connects + 1 < 2 ^ 64 - 1) :
    Filing { s with
      impl := ⟨s.impl.nextId + 1,emplace s.impl.slots s.impl.nextId s.connects⟩
      connects := s.connects + 1
      connections := s.connections ++ [⟨true,s.impl.nextId,s.connects⟩]
      log := s.log ++ [Event.connected s.connects] ++ [Event.connectEnded s.connects] } := by
  have hnext : s.impl.nextId.toNat = s.connects := ha.nextId.resolve_left h.nextId
  have hslots := emplace_of_fresh (ha.fresh h.nextId) s.connects
  refine ⟨h.stops,?_,h.frames,?_,?_,?_,?_⟩
  · intro heq
    have hmax : stoppedValue.toNat = 2 ^ 64 - 1 := rfl
    have hsucc := nextId_succ hnext h.nextId
    simp only at heq
    rw [heq,hmax] at hsucc
    omega
  · intro n hn
    exact h.invoked n (by simpa using hn)
  · intro n hn hnot
    rw [hslots]
    by_cases heq : n = s.connects
    · simp [heq]
    · have hkept := h.kept n (by simpa [heq] using hn) (fun removed hmem => hnot removed (by simp [hmem]))
      rw [List.map_append]
      exact List.mem_append_left _ hkept
  · intro n removed hn
    obtain ⟨hlt,hnot⟩ := h.removed n removed (by simpa using hn)
    have hne : n ≠ s.connects := hlt.ne
    refine ⟨Nat.lt_succ_of_lt hlt,?_⟩
    rw [hslots,List.map_append]
    simpa [hne] using hnot
  · intro c hc hatt
    rcases List.mem_append.mp hc with hc | hc
    · obtain ⟨removed,hmem⟩ := h.detached c hc hatt
      exact ⟨removed,by simp [hmem]⟩
    · obtain rfl := List.mem_singleton.mp hc
      simp at hatt

theorem filing_disconnect {s : State} (ha : Account s) (h : Filing s) {c : Connection} (hc : c ∈ s.connections)
    (i : ℕ) : Filing { s with
      impl := s.impl.disconnect c.id
      connections := s.connections.set i { c with attached := false }
      log := s.log ++ [Event.disconnected c.slot (filed s.impl.slots c.id)] } := by
  refine ⟨h.stops,h.nextId,h.frames,?_,?_,?_,?_⟩
  · intro n hn
    exact h.invoked n (by simpa using hn)
  · intro n hn hnot
    have hkept := h.kept n (by simpa using hn) (fun removed hmem => hnot removed (by simp [hmem]))
    obtain ⟨x,hx,rfl⟩ := List.mem_map.mp hkept
    refine List.mem_map_of_mem (mem_eraseKey.mpr ⟨hx,?_⟩)
    -- A slot under the id of the connection would be the one that is disconnected.
    rintro heq
    have hslot : x.2 = c.slot := ha.filed_eq hc (mem_filed.mpr (heq ▸ hx))
    exact hnot (filed s.impl.slots c.id) (by simp [hslot])
  · intro n removed hn
    rcases List.mem_append.mp hn with hn | hn
    · obtain ⟨hlt,hnot⟩ := h.removed n removed hn
      refine ⟨hlt,fun hmem => hnot ?_⟩
      obtain ⟨x,hx,rfl⟩ := List.mem_map.mp hmem
      exact List.mem_map_of_mem (mem_eraseKey.mp hx).1
    · obtain ⟨rfl,-⟩ : n = c.slot ∧ removed = filed s.impl.slots c.id := by simpa using hn
      exact ⟨ha.slot_lt hc,ha.not_filed hc⟩
  · intro d hd hatt
    rcases List.mem_or_eq_of_mem_set hd with hd | rfl
    · obtain ⟨removed,hmem⟩ := h.detached d hd hatt
      exact ⟨removed,by simp [hmem]⟩
    · exact ⟨filed s.impl.slots c.id,by simp⟩

theorem filing_detached {s : State} (h : Filing s) {c : Connection} (hc : c ∈ s.connections)
    (hatt : c.attached = false) : Filing { s with log := s.log ++ [Event.disconnected c.slot []] } := by
  obtain ⟨removed,hgone⟩ := h.detached c hc hatt
  refine ⟨h.stops,h.nextId,h.frames,?_,?_,?_,?_⟩
  · intro n hn
    exact h.invoked n (by simpa using hn)
  · intro n hn hnot
    exact h.kept n (by simpa using hn) (fun removed' hmem => hnot removed' (by simp [hmem]))
  · intro n removed' hn
    rcases List.mem_append.mp hn with hn | hn
    · exact h.removed n removed' hn
    · obtain ⟨rfl,-⟩ : n = c.slot ∧ removed' = [] := by simpa using hn
      exact h.removed _ removed hgone
  · intro d hd hatt'
    obtain ⟨removed',hmem⟩ := h.detached d hd hatt'
    exact ⟨removed',by simp [hmem]⟩

/-- The first `stop` takes out everything that was connected and not disconnected. -/
theorem running_stop {s : State} (h : Filing s) (hlog : ¬ Called s.log) :
    Running { s with
      impl := ⟨stoppedValue,[]⟩
      stops := s.stops + 1
      frames := .batch s.stops (s.impl.slots.map Prod.snd) :: s.frames
      log := s.log ++ [Event.stopBegan s.stops] } := by
  refine ⟨Nat.succ_ne_zero _,rfl,rfl,Or.inl ⟨[],s.impl.slots.map Prod.snd,?_,rfl,by simp⟩,?_,?_⟩
  · simp [h.stops,h.frames]
  · intro n hdue
    obtain ⟨hconnected,hnot⟩ := AtFirstStop.of_stop hlog hdue
    exact Or.inl (by simpa using Or.inl (List.mem_map.mp (h.kept n hconnected hnot)))
  · intro n hspared
    obtain ⟨removed,hmem⟩ := AtFirstStop.of_stop hlog hspared
    obtain ⟨hlt,hnot⟩ := h.removed n removed hmem
    refine ⟨hlt,?_,?_⟩
    · simpa [h.frames] using hnot
    · simpa using h.invoked n

section Loop

variable {frames frames' : List (Frame ℕ Caller)} {f : Frame ℕ Caller}

theorem Loop.cons (h : Loop frames) (hrest : f.rest = []) (hf : ∀ k rest, f = .batch k rest → k ≠ 0) :
    Loop (f :: frames) := by
  have hwaiting : ∀ fs, waiting (f :: fs) = waiting fs := fun fs => by simp [waiting,hrest]
  rcases h with ⟨inner,rest,rfl,hinner,hnumbers⟩ | hnone
  · refine Or.inl ⟨f :: inner,rest,rfl,(hwaiting inner).trans hinner,?_⟩
    intro k rest' hmem
    rcases List.mem_cons.mp hmem with heq | hmem
    · exact hf k rest' heq.symm
    · exact hnumbers k rest' hmem
  · exact Or.inr ((hwaiting frames).trans hnone)

theorem Loop.tail (h : Loop (f :: frames)) (hrest : f.rest = []) : Loop frames := by
  have hwaiting : ∀ fs, waiting (f :: fs) = waiting fs := fun fs => by simp [waiting,hrest]
  rcases h with ⟨inner,rest,heq,hinner,hnumbers⟩ | hnone
  · cases inner with
    | nil =>
      obtain ⟨-,rfl⟩ := List.cons.inj heq
      exact Or.inr rfl
    | cons g inner =>
      obtain ⟨rfl,rfl⟩ := List.cons.inj heq
      exact Or.inl ⟨inner,rest,rfl,(hwaiting inner).symm.trans hinner,
        fun k rest' hmem => hnumbers k rest' (List.mem_cons_of_mem _ hmem)⟩
  · exact Or.inr ((hwaiting frames).symm.trans hnone)

/-- Only the first `stop` has slots to run. -/
theorem Loop.takeNext {i n : ℕ} (h : Loop frames) (hn : takeNext frames i = some (n,frames')) : Loop frames' := by
  obtain ⟨number,rest,outer,rfl,hi,rfl⟩ := takeNext_cases hn
  have hmem := List.mem_of_getElem? hi
  rcases h with ⟨inner,rest',heq,hinner,hnumbers⟩ | hnone
  · cases inner with
    | nil =>
      obtain ⟨hbatch,rfl⟩ := List.cons.inj heq
      obtain ⟨rfl,rfl⟩ : number = 0 ∧ rest = rest' := by simpa using hbatch
      exact Or.inl ⟨[],rest.eraseIdx i,rfl,rfl,by simp⟩
    | cons g inner =>
      obtain ⟨rfl,rfl⟩ := List.cons.inj heq
      obtain ⟨rfl,-⟩ : rest = [] ∧ _ := by simpa using hinner
      simp at hmem
  · obtain ⟨rfl,-⟩ : rest = [] ∧ _ := by simpa using hnone
    simp at hmem

/-- When the first `stop` ends, nothing waits any more. -/
theorem Loop.ended (h : Loop (.batch 0 [] :: frames)) : waiting frames = [] := by
  rcases h with ⟨inner,rest,heq,-,hnumbers⟩ | hnone
  · cases inner with
    | nil =>
      obtain ⟨-,rfl⟩ := List.cons.inj heq
      rfl
    | cons g inner =>
      obtain ⟨rfl,-⟩ := List.cons.inj heq
      exact absurd rfl (hnumbers 0 [] List.mem_cons_self)
  · simpa using hnone

end Loop

theorem Running.frame {s t : State} (h : Running s) (hcalled : Called s.log) (k : List Event)
    (hlog : t.log = s.log ++ k) (hk : ∀ e ∈ k, ∀ n < s.connects, e ≠ .invoked n)
    (hstops : t.stops ≠ 0) (himpl : t.impl = ⟨stoppedValue,[]⟩) (hconnects : s.connects ≤ t.connects)
    (hwaiting : waiting t.frames = waiting s.frames) (hloop : Loop t.frames) : Running t := by
  refine ⟨hstops,by rw [himpl],by rw [himpl],hloop,?_,?_⟩
  · intro n hdue
    rw [hlog] at hdue
    rcases h.due n (AtFirstStop.of_append hcalled hdue) with hmem | hmem
    · exact Or.inl (hwaiting ▸ hmem)
    · exact Or.inr (hlog ▸ List.mem_append_left _ hmem)
  · intro n hspared
    rw [hlog] at hspared
    obtain ⟨hlt,hnot,hinvoked⟩ := h.spared n (AtFirstStop.of_append hcalled hspared)
    refine ⟨lt_of_lt_of_le hlt hconnects,hwaiting ▸ hnot,fun hmem => ?_⟩
    rw [hlog] at hmem
    rcases List.mem_append.mp hmem with hmem | hmem
    · exact hinvoked hmem
    · exact hk _ hmem n hlt rfl

theorem Running.impl {s : State} (h : Running s) : s.impl = ⟨stoppedValue,[]⟩ := by
  have heta : s.impl = ⟨s.impl.nextId,s.impl.slots⟩ := rfl
  rw [heta,h.nextId,h.slots]

theorem running_runSlot {s : State} (h : Running s) (hcalled : Called s.log) {i n : ℕ}
    {frames : List (Frame ℕ Caller)} (hn : takeNext s.frames i = some (n,frames)) :
    Running { s with frames := .call .stop :: frames, log := s.log ++ [Event.invoked n] } := by
  have hperm := waiting_takeNext hn
  refine ⟨h.stops,h.nextId,h.slots,(h.loop.takeNext hn).cons rfl (by simp),?_,?_⟩
  · intro m hdue
    rcases h.due m (AtFirstStop.of_append hcalled hdue) with hmem | hmem
    · rcases List.mem_cons.mp (hperm.mem_iff.mp hmem) with rfl | hmem
      · exact Or.inr (by simp)
      · exact Or.inl hmem
    · exact Or.inr (by simp [hmem])
  · intro m hspared
    obtain ⟨hlt,hnot,hinvoked⟩ := h.spared m (AtFirstStop.of_append hcalled hspared)
    have hne : m ≠ n := by
      rintro rfl
      exact hnot (hperm.mem_iff.mpr List.mem_cons_self)
    refine ⟨hlt,fun hmem => hnot (hperm.mem_iff.mpr (List.mem_cons_of_mem _ hmem)),?_⟩
    simpa [hne] using hinvoked

theorem Delivery.before {s : State} (hnot : ¬ Called s.log) (hfiling : Filing s) (hprompt : Prompt s.log)
    (horder : Chronicle Law s.log) : Delivery s :=
  ⟨fun _ => hfiling,fun hcalled => absurd hcalled hnot,hprompt,horder⟩

theorem Delivery.after {s : State} (hcalled : Called s.log) (hrunning : Running s) (hprompt : Prompt s.log)
    (horder : Chronicle Law s.log) : Delivery s :=
  ⟨fun hnot => absurd hcalled hnot,fun _ => hrunning,hprompt,horder⟩

theorem prompt_file {log : List Event} {n : ℕ} (h : Prompt log) (hnot : ¬ Called log) :
    Prompt (log ++ [Event.connected n] ++ [Event.connectEnded n]) := by
  have hconnected : Prompt (log ++ [Event.connected n]) := by
    intro before m after heq hcalled
    rcases Chronicle.split_snoc heq with ⟨rfl,-,-⟩ | ⟨init,rfl,hinit⟩
    · exact absurd hcalled hnot
    · obtain ⟨rest,rfl⟩ := h before m init hinit hcalled
      exact ⟨rest ++ [Event.connected n],rfl⟩
  exact hconnected.append (by simp)

theorem prompt_call {log : List Event} {n : ℕ} (h : Prompt log) :
    Prompt (log ++ [Event.connected n] ++ [Event.invoked n]) := by
  intro before m after heq hcalled
  rcases Chronicle.split_snoc heq with ⟨-,he,-⟩ | ⟨init,rfl,hinit⟩
  · simp at he
  · rcases Chronicle.split_snoc hinit with ⟨rfl,he,rfl⟩ | ⟨init',rfl,hinit'⟩
    · obtain rfl : m = n := by simpa using he
      exact ⟨[],rfl⟩
    · obtain ⟨rest,rfl⟩ := h before m init' hinit' hcalled
      exact ⟨rest ++ [Event.connected n] ++ [Event.invoked n],by simp⟩

/-- Until the first `stop` begins, slots are filed and disconnected. -/
theorem delivery_step_before {s t : State} {a : Action} (ha : Account s) (h : Delivery s) (hcalled : ¬ Called s.log)
    (hbound : t.connects < 2 ^ 64 - 1) (hstep : Step s a t) : Delivery t := by
  have hfiling := h.filing hcalled
  have hframes := hfiling.frames
  cases hstep with
  | file hfree hid =>
    refine Delivery.before ?_ (filing_file ha hfiling hbound) (prompt_file h.prompt hcalled) ?_
    · rwa [called_append_iff (by simp),called_append_iff (by simp)]
    · exact (h.order.snoc (Law.of_other (by simp) (by simp) (by simp) (by simp))).snoc
        (Law.of_other (by simp) (by simp) (by simp) (by simp))
  | call hfree hid => exact absurd hid hfiling.nextId
  | copy i c hc =>
    refine Delivery.before hcalled ⟨hfiling.stops,hfiling.nextId,hframes,hfiling.invoked,hfiling.kept,
      hfiling.removed,?_⟩ h.prompt h.order
    intro d hd hatt
    rcases List.mem_append.mp hd with hd | hd
    · exact hfiling.detached d hd hatt
    · obtain rfl := List.mem_singleton.mp hd
      exact hfiling.detached d (List.mem_of_getElem? hc) hatt
  | disconnect i c hc =>
    have hmem := List.mem_of_getElem? hc
    refine Delivery.before ?_ (filing_disconnect ha hfiling hmem i) (h.prompt.append (by simp)) ?_
    · rwa [called_append_iff (by simp)]
    · exact h.order.snoc (Law.disconnected fun n hn => ha.filed_eq hmem hn)
  | detached i c hc hatt =>
    refine Delivery.before ?_ (filing_detached hfiling (List.mem_of_getElem? hc) hatt) (h.prompt.append (by simp)) ?_
    · rwa [called_append_iff (by simp)]
    · exact h.order.snoc (Law.disconnected (by simp))
  | stop hfree =>
    refine Delivery.after ⟨s.stops,by simp⟩ (running_stop hfiling hcalled) (h.prompt.append (by simp)) ?_
    refine h.order.snoc ⟨by simp,?_,by simp,by simp⟩
    rintro k he
    obtain rfl : s.stops = k := by simpa using he
    simp [hfiling.stops,hcalled]
  | runSlot i n frames hn => simp [hframes,takeNext] at hn
  | loopEnds number frames hf => simp [hframes] at hf
  | slotEnds frames hf => simp [hframes] at hf
  | connectEnds slot frames hf => simp [hframes] at hf

/-- From then on the slots that wait run, and a new one runs at once. -/
theorem delivery_step_after {s t : State} {a : Action} (ha : Account s) (h : Delivery s) (hcalled : Called s.log)
    (hstep : Step s a t) : Delivery t := by
  have hrun := h.running hcalled
  cases hstep with
  | file hfree hid => exact absurd hrun.nextId hid
  | call hfree hid =>
    refine Delivery.after (called_append_left (called_append_left hcalled)) ?_ (prompt_call h.prompt) ?_
    · refine hrun.frame hcalled [.connected s.connects,.invoked s.connects] (by simp) ?_ hrun.stops hrun.impl
        (Nat.le_succ _) rfl (hrun.loop.cons rfl (by simp))
      intro e he n hn
      have hne : s.connects ≠ n := hn.ne'
      rcases List.mem_pair.mp he with rfl | rfl <;> simp [hne]
    · exact (h.order.snoc (Law.of_other (by simp) (by simp) (by simp) (by simp))).snoc
        (Law.invoked_of_called (called_append_left hcalled))
  | copy i c hc =>
    exact Delivery.after hcalled (hrun.frame hcalled [] (by simp) (by simp) hrun.stops hrun.impl le_rfl rfl hrun.loop)
      h.prompt h.order
  | disconnect i c hc =>
    refine Delivery.after (called_append_left hcalled) ?_ (h.prompt.append (by simp)) ?_
    · refine hrun.frame hcalled _ rfl (by simp) hrun.stops ?_ le_rfl rfl hrun.loop
      simp [Impl.disconnect,hrun.impl,eraseKey]
    · exact h.order.snoc (Law.disconnected fun n hn => ha.filed_eq (List.mem_of_getElem? hc) hn)
  | detached i c hc hatt =>
    refine Delivery.after (called_append_left hcalled) ?_ (h.prompt.append (by simp)) ?_
    · exact hrun.frame hcalled _ rfl (by simp) hrun.stops hrun.impl le_rfl rfl hrun.loop
    · exact h.order.snoc (Law.disconnected (by simp))
  | stop hfree =>
    have hslots := hrun.slots
    refine Delivery.after (called_append_left hcalled) ?_ (h.prompt.append (by simp)) ?_
    · refine hrun.frame hcalled _ rfl (by simp) (Nat.succ_ne_zero _) rfl le_rfl ?_ ?_
      · simp [hslots]
      · refine hrun.loop.cons (by simp [Frame.rest,hslots]) ?_
        rintro k rest he
        obtain ⟨rfl,-⟩ : s.stops = k ∧ _ := by simpa using he
        exact hrun.stops
    · refine h.order.snoc ⟨by simp,?_,by simp,by simp⟩
      rintro k he
      obtain rfl : s.stops = k := by simpa using he
      simp [hrun.stops,hcalled]
  | runSlot i n frames hn =>
    exact Delivery.after (called_append_left hcalled) (running_runSlot hrun hcalled hn) (h.prompt.append (by simp))
      (h.order.snoc (Law.invoked_of_called hcalled))
  | loopEnds number frames hf =>
    have hloop := hrun.loop
    rw [hf] at hloop
    refine Delivery.after (called_append_left hcalled) ?_ (h.prompt.append (by simp)) ?_
    · exact hrun.frame hcalled _ rfl (by simp) hrun.stops hrun.impl le_rfl (by simp [hf]) (hloop.tail rfl)
    · refine h.order.snoc ⟨by simp,by simp,?_,by simp⟩
      intro he
      obtain rfl : number = 0 := by simpa using he
      have hnone := hloop.ended
      refine ⟨hcalled,fun n hdue => ?_⟩
      rcases hrun.due n hdue with hmem | hmem
      · simp [hf,hnone] at hmem
      · exact hmem
  | slotEnds frames hf =>
    have hloop := hrun.loop
    rw [hf] at hloop
    exact Delivery.after hcalled (hrun.frame hcalled [] (by simp) (by simp) hrun.stops hrun.impl le_rfl
      (by simp [hf]) (hloop.tail rfl)) h.prompt h.order
  | connectEnds slot frames hf =>
    have hloop := hrun.loop
    rw [hf] at hloop
    exact Delivery.after (called_append_left hcalled) (hrun.frame hcalled _ rfl (by simp) hrun.stops hrun.impl le_rfl
      (by simp [hf]) (hloop.tail rfl)) (h.prompt.append (by simp))
      (h.order.snoc (Law.of_other (by simp) (by simp) (by simp) (by simp)))

theorem delivery_step {s t : State} {a : Action} (ha : Account s) (h : Delivery s)
    (hbound : t.connects < 2 ^ 64 - 1) (hstep : Step s a t) : Delivery t := by
  by_cases hcalled : Called s.log
  · exact delivery_step_after ha h hcalled hstep
  · exact delivery_step_before ha h hcalled hbound hstep

theorem connects_mono {s t : State} {a : Action} (hstep : Step s a t) : s.connects ≤ t.connects := by
  cases hstep with
  | file hfree hid => exact Nat.le_succ _
  | call hfree hid => exact Nat.le_succ _
  | _ => exact le_rfl

theorem reachable_delivery {s : State} (h : machine.Reachable s) (hbound : s.connects < 2 ^ 64 - 1) : Delivery s := by
  refine h.invariant_reachable (I := fun s => s.connects < 2 ^ 64 - 1 → Delivery s) ?_ ?_ hbound
  · rintro s rfl -
    refine Delivery.before (by simp [Called,State.init]) ⟨rfl,by decide,rfl,?_,?_,?_,?_⟩ ?_ Chronicle.nil
    · simp [State.init]
    · simp [State.init]
    · simp [State.init]
    · simp [State.init]
    · intro before n after hlog
      simp [State.init] at hlog
  · intro s a t hs h ha hbound
    have hstep := step_cases ha
    exact delivery_step (reachable_account hs) (h (lt_of_le_of_lt (connects_mono hstep) hbound)) hbound hstep

/-- What `stop_source` promises. Calls of `connect` and of `stop` are numbered from 0. -/
structure Delivered (s : State) : Prop where
  stopped : s.impl.stopped = true ↔ Called s.log
  first : ∀ before k after, s.log = before ++ .stopBegan k :: after → (k = 0 ↔ ¬ Called before)
  notBefore : ∀ before n after, s.log = before ++ .invoked n :: after → Called before
  atMostOnce : ∀ n, s.log.count (.invoked n) ≤ 1
  during : ∀ n, Due s.log n → ∀ before after, s.log = before ++ .stopEnded 0 :: after → .invoked n ∈ before
  spared : ∀ n, Spared s.log n → .invoked n ∉ s.log
  late : ∀ before n after, s.log = before ++ .connected n :: after → Called before →
    ∃ rest, after = .invoked n :: rest
  own : ∀ n removed, .disconnected n removed ∈ s.log → ∀ m ∈ removed, m = n

theorem count_invoked (log : List Event) (n : ℕ) : log.count (.invoked n) = (invoked log).count n := by
  induction log with
  | nil => rfl
  | cons e log ih =>
    rw [List.count_cons,invoked_cons,List.count_append,ih]
    cases e <;> simp [Nat.add_comm,List.count_singleton]

/-- Exactly-once delivery, in every run with less than `2 ^ 64 - 1` calls of `connect`. -/
theorem slots_delivered_once {s : State} (h : machine.Reachable s) (hbound : s.connects < 2 ^ 64 - 1) :
    Delivered s := by
  have hdelivery := reachable_delivery h hbound
  refine ⟨?_,?_,?_,?_,?_,?_,hdelivery.prompt,?_⟩
  · rw [Impl.stopped,beq_iff_eq]
    constructor
    · intro hnext
      by_contra hnot
      exact (hdelivery.filing hnot).nextId hnext
    · exact fun hcalled => (hdelivery.running hcalled).nextId
  · exact fun before k after hlog => (hdelivery.order before _ after hlog).first k rfl
  · exact fun before n after hlog => (hdelivery.order before _ after hlog).invoked n rfl
  · intro n
    rw [count_invoked]
    exact List.nodup_iff_count_le_one.mp (reachable_account h).invoked_nodup n
  · intro n hdue before after hlog
    obtain ⟨hcalled,hall⟩ := (hdelivery.order before _ after hlog).ended rfl
    exact hall n (AtFirstStop.of_append hcalled (hlog ▸ hdue))
  · intro n hspared
    exact ((hdelivery.running hspared.called).spared n hspared).2.2
  · intro n removed hmem
    obtain ⟨before,after,hlog⟩ := List.append_of_mem hmem
    exact (hdelivery.order before _ after hlog).own n removed rfl

/-- Two slots, of which one is disconnected through a copy of its connection; the other connects a third
and calls `stop` again while it runs. -/
def connectInsideSlot : List Action :=
  [.connect,.connect,.copy 0,.disconnect 2,.disconnect 0,.stop,.runSlot 0,.connect,.slotReturns,.stop,.loopEnds,
    .slotReturns,.loopEnds]

theorem slots_delivered_once_connectInsideSlot :
    ∃ s, machine.replay State.init connectInsideSlot = some s ∧ invoked s.log = [1,2] ∧ Delivered s := by
  have hrun : machine.replay State.init connectInsideSlot = some _ := rfl
  exact ⟨_,hrun,rfl,slots_delivered_once (Machine.Reachable.of_replay rfl hrun) (by decide)⟩

end StopSource
end BeastWebsocketEcho
