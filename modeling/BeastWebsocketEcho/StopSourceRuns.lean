import BeastWebsocketEcho.StopSource
import BeastWebsocketEcho.Chronicle

/-!
# Runs of the stop source

The slots that are filed or taken out, and the slots that ran, are the account of a roster.
An id is the number of its slot as long as ids are given out, so a `disconnect` finds its own
slot or nothing. After the first `stop` nothing is filed any more.
-/

namespace BeastWebsocketEcho
namespace StopSource

@[simp] def Event.invoked? : Event → Option ℕ
  | .invoked slot => some slot
  | _ => none

def invoked (log : List Event) : List ℕ := log.filterMap Event.invoked?

section Logs

variable (l k : List Event) (e : Event)

@[simp] theorem invoked_nil : invoked [] = [] := rfl
@[simp] theorem invoked_append : invoked (l ++ k) = invoked l ++ invoked k := List.filterMap_append
@[simp] theorem invoked_cons : invoked (e :: l) = e.invoked?.toList ++ invoked l := filterMap_cons_toList _ _ _

theorem mem_invoked {l : List Event} {n : ℕ} : n ∈ invoked l ↔ .invoked n ∈ l := by
  constructor
  · intro h
    obtain ⟨e,he,hn⟩ := List.mem_filterMap.mp h
    cases e with
    | invoked slot =>
      obtain rfl : slot = n := by simpa using hn
      exact he
    | _ => simp at hn
  · exact fun h => List.mem_filterMap.mpr ⟨_,h,rfl⟩

end Logs

inductive Step (s : State) : Action → State → Prop
  | file (hfree : free s.frames = true) (hid : s.impl.nextId ≠ stoppedValue) :
      Step s .connect { s with
        impl := ⟨s.impl.nextId + 1,emplace s.impl.slots s.impl.nextId s.connects⟩
        connects := s.connects + 1
        connections := s.connections ++ [⟨true,s.impl.nextId,s.connects⟩]
        log := s.log ++ [.connected s.connects] ++ [.connectEnded s.connects] }
  | call (hfree : free s.frames = true) (hid : s.impl.nextId = stoppedValue) :
      Step s .connect { s with
        connects := s.connects + 1
        frames := .call (.connect s.connects) :: s.frames
        log := s.log ++ [.connected s.connects] ++ [.invoked s.connects] }
  | copy (i : ℕ) (c : Connection) (hc : s.connections[i]? = some c) :
      Step s (.copy i) { s with connections := s.connections ++ [c] }
  | disconnect (i : ℕ) (c : Connection) (hc : s.connections[i]? = some c) :
      Step s (.disconnect i) { s with
        impl := s.impl.disconnect c.id
        connections := s.connections.set i { c with attached := false }
        log := s.log ++ [.disconnected c.slot (filed s.impl.slots c.id)] }
  | detached (i : ℕ) (c : Connection) (hc : s.connections[i]? = some c) (ha : c.attached = false) :
      Step s (.disconnect i) { s with log := s.log ++ [.disconnected c.slot []] }
  | stop (hfree : free s.frames = true) :
      Step s .stop { s with
        impl := ⟨stoppedValue,[]⟩
        stops := s.stops + 1
        frames := .batch s.stops (s.impl.slots.map Prod.snd) :: s.frames
        log := s.log ++ [.stopBegan s.stops] }
  | runSlot (i n : ℕ) (frames : List (Frame ℕ Caller)) (hn : takeNext s.frames i = some (n,frames)) :
      Step s (.runSlot i) { s with
        frames := .call .stop :: frames
        log := s.log ++ [.invoked n] }
  | loopEnds (number : ℕ) (frames : List (Frame ℕ Caller)) (hf : s.frames = .batch number [] :: frames) :
      Step s .loopEnds { s with frames := frames, log := s.log ++ [.stopEnded number] }
  | slotEnds (frames : List (Frame ℕ Caller)) (hf : s.frames = .call .stop :: frames) :
      Step s .slotReturns { s with frames := frames }
  | connectEnds (slot : ℕ) (frames : List (Frame ℕ Caller)) (hf : s.frames = .call (.connect slot) :: frames) :
      Step s .slotReturns { s with
        frames := frames
        connections := s.connections ++ [⟨true,stoppedValue,slot⟩]
        log := s.log ++ [.connectEnded slot] }

theorem step_cases {s t : State} {a : Action} (h : step s a = some t) : Step s a t := by
  cases a with
  | connect =>
    simp only [step] at h
    split at h
    · next hfree =>
      obtain rfl := Option.some.inj h
      by_cases hid : s.impl.nextId = stoppedValue
      · simpa [State.connect,State.emit,hid] using Step.call hfree hid
      · simpa [State.connect,State.emit,State.endConnect,hid] using Step.file hfree hid
    · exact absurd h (by simp)
  | copy i =>
    simp only [step] at h
    split at h
    · obtain ⟨c,hc,rfl⟩ := Option.map_eq_some_iff.mp h
      exact Step.copy i c hc
    · exact absurd h (by simp)
  | disconnect i =>
    simp only [step] at h
    split at h
    · obtain ⟨c,hc,rfl⟩ := Option.map_eq_some_iff.mp h
      by_cases ha : c.attached = true
      · simpa [State.disconnect,State.emit,ha] using Step.disconnect i c hc
      · simpa [State.disconnect,State.emit,ha] using Step.detached i c hc (by simpa using ha)
    · exact absurd h (by simp)
  | stop =>
    simp only [step] at h
    split at h
    · next hfree =>
      obtain rfl := Option.some.inj h
      exact Step.stop hfree
    · exact absurd h (by simp)
  | runSlot i =>
    obtain ⟨⟨n,frames⟩,hn,rfl⟩ := Option.map_eq_some_iff.mp h
    exact Step.runSlot i n frames hn
  | loopEnds =>
    simp only [step] at h
    split at h
    · next number frames hf =>
      obtain rfl := Option.some.inj h
      exact Step.loopEnds number frames hf
    · exact absurd h (by simp)
  | slotReturns =>
    simp only [step] at h
    split at h
    · next caller frames hf =>
      obtain rfl := Option.some.inj h
      cases caller with
      | stop => exact Step.slotEnds frames hf
      | connect slot => exact Step.connectEnds slot frames hf
    · exact absurd h (by simp)

/-- The slots that are filed, and those that were taken out to be run. -/
def pending (s : State) : List ℕ := s.impl.slots.map Prod.snd ++ waiting s.frames

structure Account (s : State) : Prop where
  roster : ∃ r : Roster, r.added = s.connects ∧ r.pending = pending s ∧ r.invoked = invoked s.log
  nextId : s.impl.nextId = stoppedValue ∨ s.impl.nextId.toNat = s.connects
  slots : ∀ x ∈ s.impl.slots, x.1.toNat = x.2 ∧ x.1 ≠ stoppedValue
  connections : ∀ c ∈ s.connections,
    c.id.toNat = c.slot ∧ c.slot < s.connects ∨ c.id = stoppedValue ∧ .invoked c.slot ∈ s.log
  callers : ∀ slot, .call (.connect slot) ∈ s.frames → .invoked slot ∈ s.log

namespace Account

variable {s : State}

theorem pending_lt (h : Account s) {n : ℕ} (hn : n ∈ pending s) : n < s.connects := by
  obtain ⟨r,hadded,hpending,-⟩ := h.roster
  rw [← hadded]
  exact r.bound n (List.mem_append_left _ (hpending ▸ hn))

theorem invoked_lt (h : Account s) {n : ℕ} (hn : .invoked n ∈ s.log) : n < s.connects := by
  obtain ⟨r,hadded,-,hinvoked⟩ := h.roster
  rw [← hadded]
  exact r.bound n (List.mem_append_right _ (hinvoked ▸ mem_invoked.mpr hn))

theorem not_pending (h : Account s) {n : ℕ} (hn : .invoked n ∈ s.log) : n ∉ pending s := by
  obtain ⟨r,-,hpending,hinvoked⟩ := h.roster
  rw [← hpending]
  exact r.not_pending (hinvoked ▸ mem_invoked.mpr hn)

theorem invoked_nodup (h : Account s) : (invoked s.log).Nodup := by
  obtain ⟨r,-,-,hinvoked⟩ := h.roster
  exact hinvoked ▸ r.invoked_nodup

/-- What `disconnect` removes is the slot of its own connection. -/
theorem filed_eq (h : Account s) {c : Connection} (hc : c ∈ s.connections) {n : ℕ}
    (hn : n ∈ filed s.impl.slots c.id) : n = c.slot := by
  obtain ⟨hkey,hne⟩ := h.slots _ (mem_filed.mp hn)
  rcases h.connections c hc with ⟨hid,-⟩ | ⟨hid,-⟩
  · exact hkey.symm.trans hid
  · exact absurd hid hne

theorem slot_lt (h : Account s) {c : Connection} (hc : c ∈ s.connections) : c.slot < s.connects := by
  rcases h.connections c hc with ⟨-,hlt⟩ | ⟨-,hinvoked⟩
  · exact hlt
  · exact h.invoked_lt hinvoked

/-- Once `disconnect` has erased its id, the slot of a connection is not filed. -/
theorem not_filed (h : Account s) {c : Connection} (hc : c ∈ s.connections) :
    c.slot ∉ (eraseKey s.impl.slots c.id).map Prod.snd := by
  intro hmem
  obtain ⟨x,hx,hslot⟩ := List.mem_map.mp hmem
  obtain ⟨hx,hne⟩ := mem_eraseKey.mp hx
  rcases h.connections c hc with ⟨hid,-⟩ | ⟨-,hinvoked⟩
  · have hkey := (h.slots x hx).1
    exact hne (UInt64.toNat_inj.mp (by rw [hkey,hslot,hid]))
  · exact h.not_pending hinvoked (List.mem_append_left _ (hslot ▸ List.mem_map_of_mem hx))

/-- A new slot is filed under an id that no other slot has. -/
theorem fresh (h : Account s) (hid : s.impl.nextId ≠ stoppedValue) : ∀ x ∈ s.impl.slots, x.1 ≠ s.impl.nextId := by
  intro x hx heq
  have hlt : x.2 < s.connects := h.pending_lt (List.mem_append_left _ (List.mem_map_of_mem hx))
  have hkey := (h.slots x hx).1
  rcases h.nextId with hstop | hnext
  · exact hid hstop
  · rw [heq,hnext] at hkey
    omega

end Account

theorem nextId_succ {id : UInt64} {n : ℕ} (h : id.toNat = n) (hid : id ≠ stoppedValue) : (id + 1).toNat = n + 1 := by
  have hlt := id.toNat_lt
  have hne : id.toNat ≠ stoppedValue.toNat := fun heq => hid (UInt64.toNat_inj.mp heq)
  have hmax : stoppedValue.toNat = 2 ^ 64 - 1 := rfl
  rw [hmax] at hne
  exact toNat_add_one h (by omega)

/-- Taking slots out, giving some up or ending a call leaves the account of the others as it was. -/
theorem Account.keep {s t : State} (h : Account s) (k : List Event) (hlog : t.log = s.log ++ k)
    (hk : invoked k = []) (hpending : (pending t).Subperm (pending s))
    (hnext : t.impl.nextId = stoppedValue ∨ t.impl.nextId = s.impl.nextId)
    (hslots : ∀ x ∈ t.impl.slots, x ∈ s.impl.slots)
    (hconnections : ∀ c ∈ t.connections,
      c.id.toNat = c.slot ∧ c.slot < s.connects ∨ c.id = stoppedValue ∧ .invoked c.slot ∈ s.log)
    (hcallers : ∀ slot, .call (.connect slot) ∈ t.frames → .call (.connect slot) ∈ s.frames)
    (hconnects : t.connects = s.connects) : Account t := by
  obtain ⟨r,hadded,hr,hinvoked⟩ := h.roster
  have hgrow : ∀ e ∈ s.log, e ∈ t.log := fun e he => hlog ▸ List.mem_append_left _ he
  refine ⟨⟨r.keep (pending t) (hr ▸ hpending),hadded.trans hconnects.symm,rfl,?_⟩,?_,?_,?_,?_⟩
  · rw [hlog,invoked_append,hk,List.append_nil]
    exact hinvoked
  · rcases hnext with hstop | hsame
    · exact Or.inl hstop
    · rw [hsame,hconnects]
      exact h.nextId
  · exact fun x hx => h.slots x (hslots x hx)
  · intro c hc
    rw [hconnects]
    exact (hconnections c hc).imp_right fun hinv => ⟨hinv.1,hgrow _ hinv.2⟩
  · exact fun slot hslot => hgrow _ (h.callers slot (hcallers slot hslot))

/-- What connections and callers are known by stays true when more slots are connected and run. -/
theorem Account.grow {s : State} (h : Account s) (k : List Event) : ∀ c ∈ s.connections,
    c.id.toNat = c.slot ∧ c.slot < s.connects + 1 ∨ c.id = stoppedValue ∧ .invoked c.slot ∈ s.log ++ k := by
  intro c hc
  rcases h.connections c hc with ⟨hid,hlt⟩ | ⟨hid,hinvoked⟩
  · exact Or.inl ⟨hid,Nat.lt_succ_of_lt hlt⟩
  · exact Or.inr ⟨hid,List.mem_append_left _ hinvoked⟩

theorem account_file {s : State} (h : Account s) (hid : s.impl.nextId ≠ stoppedValue) :
    Account { s with
      impl := ⟨s.impl.nextId + 1,emplace s.impl.slots s.impl.nextId s.connects⟩
      connects := s.connects + 1
      connections := s.connections ++ [⟨true,s.impl.nextId,s.connects⟩]
      log := s.log ++ [Event.connected s.connects] ++ [Event.connectEnded s.connects] } := by
  obtain ⟨r,hadded,hpending,hinvoked⟩ := h.roster
  have hnext : s.impl.nextId.toNat = s.connects := h.nextId.resolve_left hid
  have hslots : emplace s.impl.slots s.impl.nextId s.connects = s.impl.slots ++ [(s.impl.nextId,s.connects)] :=
    emplace_of_fresh (h.fresh hid) _
  have hperm : (s.impl.slots.map Prod.snd ++ [s.connects] ++ waiting s.frames).Perm
      (pending s ++ [s.connects]) := by
    rw [pending,List.append_assoc,List.append_assoc]
    exact (List.perm_append_comm).append_left _
  refine ⟨⟨r.add.keep _ (hpending ▸ hadded ▸ hperm.subperm),?_,?_,?_⟩,?_,?_,?_,?_⟩
  · simp [Roster.keep,Roster.add,hadded]
  · simp [Roster.keep,pending,hslots,hadded]
  · simp [Roster.keep,Roster.add,hinvoked]
  · exact Or.inr (nextId_succ hnext hid)
  · intro x hx
    simp only [hslots,List.mem_append,List.mem_singleton] at hx
    rcases hx with hx | rfl
    · exact h.slots x hx
    · exact ⟨hnext,hid⟩
  · intro c hc
    rw [List.append_assoc]
    rcases List.mem_append.mp hc with hc | hc
    · exact h.grow _ c hc
    · obtain rfl := List.mem_singleton.mp hc
      exact Or.inl ⟨hnext,Nat.lt_succ_self _⟩
  · intro slot hslot
    rw [List.append_assoc]
    exact List.mem_append_left _ (h.callers slot hslot)

theorem account_call {s : State} (h : Account s) (hid : s.impl.nextId = stoppedValue) :
    Account { s with
      connects := s.connects + 1
      frames := .call (.connect s.connects) :: s.frames
      log := s.log ++ [Event.connected s.connects] ++ [Event.invoked s.connects] } := by
  obtain ⟨r,hadded,hpending,hinvoked⟩ := h.roster
  refine ⟨⟨r.runNow,?_,hpending,?_⟩,Or.inl hid,h.slots,?_,?_⟩
  · simp [Roster.runNow,hadded]
  · simp [Roster.runNow,hinvoked,hadded]
  · rw [List.append_assoc]
    exact h.grow _
  · intro slot hslot
    rcases List.mem_cons.mp hslot with heq | hslot
    · simp only [Frame.call.injEq,Caller.connect.injEq] at heq
      simp [heq]
    · simp [h.callers slot hslot]

theorem account_runSlot {s : State} (h : Account s) {i n : ℕ} {frames : List (Frame ℕ Caller)}
    (hn : takeNext s.frames i = some (n,frames)) :
    Account { s with frames := .call .stop :: frames, log := s.log ++ [Event.invoked n] } := by
  obtain ⟨r,hadded,hpending,hinvoked⟩ := h.roster
  have hperm : (pending s).Perm (n :: (s.impl.slots.map Prod.snd ++ waiting frames)) :=
    ((waiting_takeNext hn).append_left _).trans List.perm_middle
  obtain ⟨number,rest,outer,hf,-,rfl⟩ := takeNext_cases hn
  refine ⟨⟨r.invoke n _ (hpending ▸ hperm),hadded,rfl,?_⟩,h.nextId,h.slots,?_,?_⟩
  · simp [Roster.invoke,hinvoked]
  · intro c hc
    exact (h.connections c hc).imp_right fun hinv => ⟨hinv.1,List.mem_append_left _ hinv.2⟩
  · intro slot hslot
    exact List.mem_append_left _ (h.callers slot (by simpa [hf] using hslot))

theorem account_step {s t : State} {a : Action} (h : Account s) (hstep : Step s a t) : Account t := by
  cases hstep with
  | file hfree hid => exact account_file h hid
  | call hfree hid => exact account_call h hid
  | runSlot i n frames hn => exact account_runSlot h hn
  | copy i c hc =>
    refine h.keep [] (by simp) rfl (List.Subperm.refl _) (Or.inr rfl) (fun _ hx => hx) ?_ (fun _ hf => hf) rfl
    intro d hd
    rcases List.mem_append.mp hd with hd | hd
    · exact h.connections d hd
    · obtain rfl := List.mem_singleton.mp hd
      exact h.connections d (List.mem_of_getElem? hc)
  | disconnect i c hc =>
    have hsub : (eraseKey s.impl.slots c.id).Sublist s.impl.slots := List.filter_sublist
    refine h.keep _ rfl rfl ?_ (Or.inr rfl) (fun x hx => hsub.subset hx) ?_ (fun _ hf => hf) rfl
    · exact ((hsub.map Prod.snd).append_right _).subperm
    · intro d hd
      rcases List.mem_or_eq_of_mem_set hd with hd | rfl
      · exact h.connections d hd
      · exact h.connections c (List.mem_of_getElem? hc)
  | detached i c hc hatt =>
    exact h.keep _ rfl rfl (List.Subperm.refl _) (Or.inr rfl) (fun _ hx => hx) h.connections (fun _ hf => hf) rfl
  | stop hfree =>
    exact h.keep _ rfl rfl (List.Subperm.refl _) (Or.inl rfl) (by simp) h.connections (by simp) rfl
  | loopEnds number frames hf =>
    refine h.keep _ rfl rfl ?_ (Or.inr rfl) (fun _ hx => hx) h.connections ?_ rfl
    · simp [pending,hf,List.Subperm.refl]
    · exact fun slot hslot => hf ▸ List.mem_cons_of_mem _ hslot
  | slotEnds frames hf =>
    refine h.keep [] (by simp) rfl ?_ (Or.inr rfl) (fun _ hx => hx) h.connections ?_ rfl
    · simp [pending,hf,List.Subperm.refl]
    · exact fun slot hslot => hf ▸ List.mem_cons_of_mem _ hslot
  | connectEnds slot frames hf =>
    refine h.keep _ rfl rfl ?_ (Or.inr rfl) (fun _ hx => hx) ?_ ?_ rfl
    · simp [pending,hf,List.Subperm.refl]
    · intro c hc
      rcases List.mem_append.mp hc with hc | hc
      · exact h.connections c hc
      · obtain rfl := List.mem_singleton.mp hc
        exact Or.inr ⟨rfl,h.callers slot (by simp [hf])⟩
    · exact fun slot' hslot => hf ▸ List.mem_cons_of_mem _ hslot

theorem reachable_account {s : State} (h : machine.Reachable s) : Account s := by
  refine h.invariant ?_ ?_
  · rintro s rfl
    exact ⟨⟨Roster.empty,rfl,rfl,rfl⟩,Or.inr rfl,by simp [State.init],by simp [State.init],by simp [State.init]⟩
  · exact fun s a t hs ha => account_step hs (step_cases ha)

/-- No slot is disconnected between the `stop` that takes it out and its run. -/
def uncrossed (s : State) : Action → Bool
  | .disconnect i => !(s.connections[i]?).any fun c => (waiting s.frames).contains c.slot
  | _ => true

/-- A slot that runs was not disconnected before. -/
def Silent (before : List Event) (e : Event) : Prop :=
  ∀ slot, e = .invoked slot → ∀ removed, .disconnected slot removed ∉ before

structure GivenUp (s : State) : Prop where
  slots : ∀ slot removed, .disconnected slot removed ∈ s.log → slot < s.connects ∧ slot ∉ pending s
  connections : ∀ c ∈ s.connections, c.attached = false → ∃ removed, .disconnected c.slot removed ∈ s.log
  order : Chronicle Silent s.log

theorem Silent.of_ne {before : List Event} {e : Event} (h : ∀ slot, e ≠ .invoked slot) : Silent before e :=
  fun slot he => absurd he (h slot)

theorem GivenUp.frame {s t : State} (h : GivenUp s) (k : List Event) (hlog : t.log = s.log ++ k)
    (hk : ∀ e ∈ k, ∀ slot, e ≠ .invoked slot ∧ ∀ removed, e ≠ .disconnected slot removed)
    (hconnects : s.connects ≤ t.connects) (hpending : ∀ n < s.connects, n ∈ pending t → n ∈ pending s)
    (hconnections : ∀ c ∈ t.connections, c.attached = false → c ∈ s.connections) : GivenUp t := by
  refine ⟨?_,?_,?_⟩
  · intro slot removed hmem
    rw [hlog] at hmem
    rcases List.mem_append.mp hmem with hmem | hmem
    · obtain ⟨hlt,hnot⟩ := h.slots slot removed hmem
      exact ⟨lt_of_lt_of_le hlt hconnects,fun hp => hnot (hpending slot hlt hp)⟩
    · exact absurd rfl ((hk _ hmem slot).2 removed)
  · intro c hc ha
    obtain ⟨removed,hmem⟩ := h.connections c (hconnections c hc ha) ha
    exact ⟨removed,hlog ▸ List.mem_append_left _ hmem⟩
  · rw [hlog]
    exact append_induction h.order k fun l e he hl => hl.snoc (Silent.of_ne fun slot => (hk e he slot).1)

/-- A connection is disconnected whose slot does not wait to be run any more. -/
theorem GivenUp.disconnect {s t : State} (h : GivenUp s) (ha : Account s) {c : Connection} (hc : c ∈ s.connections)
    (removed : List ℕ) (hlog : t.log = s.log ++ [Event.disconnected c.slot removed])
    (hconnects : t.connects = s.connects)
    (hpending : ∀ n ∈ pending t, n ∈ pending s) (hslot : c.slot ∉ pending t)
    (hconnections : ∀ d ∈ t.connections, d.attached = false → d ∈ s.connections ∨ d.slot = c.slot) : GivenUp t := by
  refine ⟨?_,?_,?_⟩
  · intro slot removed' hmem
    rw [hconnects]
    rw [hlog] at hmem
    rcases List.mem_append.mp hmem with hmem | hmem
    · obtain ⟨hlt,hnot⟩ := h.slots slot removed' hmem
      exact ⟨hlt,fun hp => hnot (hpending slot hp)⟩
    · obtain ⟨rfl,rfl⟩ : slot = c.slot ∧ removed' = removed := by simpa using hmem
      exact ⟨ha.slot_lt hc,hslot⟩
  · intro d hd hatt
    rw [hlog]
    rcases hconnections d hd hatt with hd | hd
    · obtain ⟨removed',hmem⟩ := h.connections d hd hatt
      exact ⟨removed',List.mem_append_left _ hmem⟩
    · exact ⟨removed,by simp [hd]⟩
  · rw [hlog]
    exact h.order.snoc (Silent.of_ne (by simp))

/-- A slot that is connected after `stop` was never disconnected when it runs. -/
theorem GivenUp.call {s : State} (h : GivenUp s) : GivenUp { s with
    connects := s.connects + 1
    frames := .call (.connect s.connects) :: s.frames
    log := s.log ++ [Event.connected s.connects] ++ [Event.invoked s.connects] } := by
  have hnot : ∀ removed, .disconnected s.connects removed ∉ s.log := by
    intro removed hmem
    exact absurd (h.slots _ removed hmem).1 (by simp)
  refine ⟨?_,?_,?_⟩
  · intro slot removed hmem
    obtain ⟨hlt,hp⟩ := h.slots slot removed (by simpa using hmem)
    exact ⟨Nat.lt_succ_of_lt hlt,hp⟩
  · intro c hc hatt
    obtain ⟨removed,hmem⟩ := h.connections c hc hatt
    exact ⟨removed,by simp [hmem]⟩
  · refine (h.order.snoc (Silent.of_ne (by simp))).snoc ?_
    intro slot he removed hmem
    obtain rfl : slot = s.connects := by simpa using he.symm
    exact hnot removed (by simpa using hmem)

/-- What is taken to be run waited, so it was not disconnected. -/
theorem GivenUp.runSlot {s : State} (h : GivenUp s) {i n : ℕ} {frames : List (Frame ℕ Caller)}
    (hn : takeNext s.frames i = some (n,frames)) :
    GivenUp { s with frames := .call .stop :: frames, log := s.log ++ [Event.invoked n] } := by
  have hperm := waiting_takeNext hn
  have hmem : n ∈ pending s := List.mem_append_right _ (hperm.mem_iff.mpr List.mem_cons_self)
  refine ⟨?_,?_,?_⟩
  · intro slot removed hgone
    obtain ⟨hlt,hnot⟩ := h.slots slot removed (by simpa using hgone)
    refine ⟨hlt,fun hp => hnot ?_⟩
    rcases List.mem_append.mp hp with hp | hp
    · exact List.mem_append_left _ hp
    · exact List.mem_append_right _ (hperm.mem_iff.mpr (List.mem_cons_of_mem _ hp))
  · intro c hc hatt
    obtain ⟨removed,hgone⟩ := h.connections c hc hatt
    exact ⟨removed,by simp [hgone]⟩
  · refine h.order.snoc ?_
    intro slot he removed hgone
    obtain rfl : slot = n := by simpa using he.symm
    exact (h.slots slot removed hgone).2 hmem

theorem givenUp_step {s t : State} {a : Action} (ha : Account s) (h : GivenUp s) (hok : uncrossed s a = true)
    (hstep : Step s a t) : GivenUp t := by
  cases hstep with
  | file hfree hid =>
    refine h.frame [.connected s.connects,.connectEnded s.connects] (by simp) (by simp) (Nat.le_succ _) ?_ ?_
    · intro n hn hmem
      have hne : n ≠ s.connects := hn.ne
      simpa [pending,emplace_of_fresh (ha.fresh hid),hne] using hmem
    · intro c hc hatt
      rcases List.mem_append.mp hc with hc | hc
      · exact hc
      · obtain rfl := List.mem_singleton.mp hc
        simp at hatt
  | call hfree hid => exact h.call
  | copy i c hc =>
    refine h.frame [] (by simp) (by simp) le_rfl (fun _ _ hn => hn) ?_
    intro d hd _
    rcases List.mem_append.mp hd with hd | hd
    · exact hd
    · obtain rfl := List.mem_singleton.mp hd
      exact List.mem_of_getElem? hc
  | disconnect i c hc =>
    have hwait : c.slot ∉ waiting s.frames := by simpa [uncrossed,hc] using hok
    have hmem := List.mem_of_getElem? hc
    refine h.disconnect ha hmem _ rfl rfl ?_ ?_ ?_
    · intro n hn
      rcases List.mem_append.mp hn with hn | hn
      · obtain ⟨x,hx,rfl⟩ := List.mem_map.mp hn
        exact List.mem_append_left _ (List.mem_map_of_mem (mem_eraseKey.mp hx).1)
      · exact List.mem_append_right _ hn
    · intro hn
      rcases List.mem_append.mp hn with hn | hn
      · exact ha.not_filed hmem hn
      · exact hwait hn
    · intro d hd _
      rcases List.mem_or_eq_of_mem_set hd with hd | rfl
      · exact Or.inl hd
      · exact Or.inr rfl
  | detached i c hc hatt =>
    have hmem := List.mem_of_getElem? hc
    obtain ⟨removed,hgone⟩ := h.connections c hmem hatt
    exact h.disconnect ha hmem _ rfl rfl (fun _ hn => hn) (h.slots _ removed hgone).2 (fun d hd _ => Or.inl hd)
  | stop hfree =>
      exact h.frame [.stopBegan s.stops] rfl (by simp) le_rfl
        (fun _ _ hn => by simpa [pending] using hn) (fun _ hc _ => hc)
  | runSlot i n frames hn => exact h.runSlot hn
  | loopEnds number frames hf =>
    exact h.frame [.stopEnded number] rfl (by simp) le_rfl
      (fun _ _ hn => by simpa [pending,hf] using hn) (fun _ hc _ => hc)
  | slotEnds frames hf =>
    exact h.frame [] (by simp) (by simp) le_rfl (fun _ _ hn => by simpa [pending,hf] using hn) (fun _ hc _ => hc)
  | connectEnds slot frames hf =>
    refine h.frame [.connectEnded slot] rfl (by simp) le_rfl (fun _ _ hn => by simpa [pending,hf] using hn) ?_
    intro c hc hatt
    rcases List.mem_append.mp hc with hc | hc
    · exact hc
    · obtain rfl := List.mem_singleton.mp hc
      simp at hatt

/-- A disconnected slot does not run, in every run in which no slot is disconnected between the `stop`
that takes it out and its own turn. -/
theorem disconnected_slot_does_not_run {s : State} (h : (machine.restrict uncrossed).Reachable s) :
    Chronicle Silent s.log := by
  have hgiven : GivenUp s := by
    refine h.invariant_reachable ?_ ?_
    · rintro s rfl
      exact ⟨by simp [State.init],by simp [State.init],Chronicle.nil⟩
    · intro s a t hs h ha
      obtain ⟨hok,hstep⟩ := Machine.restrict_step_iff.mp ha
      exact givenUp_step (reachable_account hs.of_restrict) h hok (step_cases hstep)
  exact hgiven.order

/-- Three slots, of which the first is disconnected before `stop` and disconnects itself again when
the other two run. -/
def disconnectThenStop : List Action :=
  [.connect,.connect,.connect,.disconnect 0,.stop,.runSlot 1,.disconnect 0,.slotReturns,.runSlot 0,.slotReturns,
    .loopEnds]

theorem disconnected_slot_does_not_run_disconnectThenStop :
    ∃ s, (machine.restrict uncrossed).replay State.init disconnectThenStop = some s ∧ invoked s.log = [2,1] ∧
      Chronicle Silent s.log := by
  have hrun : (machine.restrict uncrossed).replay State.init disconnectThenStop = some _ := rfl
  exact ⟨_,hrun,rfl,disconnected_slot_does_not_run (Machine.Reachable.of_replay rfl hrun)⟩

def disconnectDuringStop : List Action :=
  [.connect,.connect,.stop,.runSlot 0,.disconnect 1,.slotReturns,.runSlot 0]

theorem disconnected_slot_runs : ¬ ∀ s, machine.Reachable s → Chronicle Silent s.log := by
  intro h
  have hrun : machine.replay State.init disconnectDuringStop = some _ := rfl
  have hsilent := h _ (Machine.Reachable.of_replay rfl hrun)
  exact hsilent [.connected 0,.connectEnded 0,.connected 1,.connectEnded 1,.stopBegan 0,.invoked 0,
    .disconnected 1 []] (.invoked 1) [] rfl 1 rfl [] (by simp)

end StopSource
end BeastWebsocketEcho
