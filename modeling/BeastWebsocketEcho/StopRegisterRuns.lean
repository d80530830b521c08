import BeastWebsocketEcho.StopRegister
import BeastWebsocketEcho.Chronicle

/-!
# Runs of the stop register

Moving and swapping tokens permutes the ids that tokens and temporaries hold, so everything
is said of these ids. Each is the id of one callback, which is filed under it until it is
taken out by `notify_all`.
-/

namespace BeastWebsocketEcho
namespace StopTokens

@[simp] def Event.invoked? : Event → Option ℕ
  | .invoked _ callback => some callback
  | _ => none

def invoked (log : List Event) : List ℕ := log.filterMap Event.invoked?

def Taken (log : List Event) (n : ℕ) : Prop :=
  ∃ number held taken, .notifyBegan number held taken ∈ log ∧ n ∈ taken

section Logs

variable (l k : List Event) (e : Event)

@[simp] theorem invoked_nil : invoked [] = [] := rfl
@[simp] theorem invoked_append : invoked (l ++ k) = invoked l ++ invoked k := List.filterMap_append
@[simp] theorem invoked_cons : invoked (e :: l) = e.invoked?.toList ++ invoked l := filterMap_cons_toList _ _ _

variable {l e}

theorem taken_snoc_iff {n : ℕ} :
    Taken (l ++ [e]) n ↔ Taken l n ∨ ∃ number held taken, e = .notifyBegan number held taken ∧ n ∈ taken := by
  constructor
  · rintro ⟨number,held,taken,hmem,hn⟩
    rcases List.mem_append.mp hmem with hmem | hmem
    · exact Or.inl ⟨number,held,taken,hmem,hn⟩
    · exact Or.inr ⟨number,held,taken,(List.mem_singleton.mp hmem).symm,hn⟩
  · rintro (⟨number,held,taken,hmem,hn⟩ | ⟨number,held,taken,rfl,hn⟩)
    · exact ⟨number,held,taken,List.mem_append_left _ hmem,hn⟩
    · exact ⟨number,held,taken,by simp,hn⟩

theorem taken_snoc_of_ne {n : ℕ} (he : ∀ number held taken, e ≠ .notifyBegan number held taken) :
    Taken (l ++ [e]) n ↔ Taken l n := by
  rw [taken_snoc_iff,or_iff_left]
  rintro ⟨number,held,taken,heq,-⟩
  exact he number held taken heq

end Logs

/-- What the log says of an event together with the events before it. `notify_all` takes out the
callbacks whose token is alive and that were not taken out before, and has run them all when it ends;
a callback runs once, for the `notify_all` that took it out; and what the end of a registration
removes is its own callback. -/
structure Law (before : List Event) (e : Event) : Prop where
  added : ∀ id n, e = .added id n → id.toNat = n + 1
  fresh : ∀ number held taken, e = .notifyBegan number held taken →
    ∀ held' taken', .notifyBegan number held' taken' ∉ before
  taken : ∀ number held taken, e = .notifyBegan number held taken →
    ∀ n, n ∈ taken ↔ (∃ id ∈ held, id.toNat = n + 1) ∧ ¬ Taken before n
  ended : ∀ number, e = .notifyEnded number →
    ∃ held taken, .notifyBegan number held taken ∈ before ∧ ∀ n ∈ taken, .invoked number n ∈ before
  invoked : ∀ number n, e = .invoked number n →
    (∃ held taken, .notifyBegan number held taken ∈ before ∧ n ∈ taken) ∧ n ∉ invoked before
  own : ∀ id removed, e = .dropped id removed → ∀ n ∈ removed, id.toNat = n + 1
  register : e ≠ .nullRegister

/-- The callbacks that are filed, and those that were taken out to be run. -/
def pending (s : State) : List ℕ := s.register.map.map Prod.snd ++ waiting s.frames

/-- The books of a register some tokens and temporaries of which hold the ids `held`. -/
structure Books (s : State) (held : List UInt64) : Prop where
  roster : ∃ r : Roster, r.added = s.adds ∧ r.pending = pending s ∧ r.invoked = invoked s.log
  nextId : s.register.nextId.toNat = s.adds
  nodup : held.Nodup
  bound : ∀ id ∈ held, id.toNat ≤ s.adds
  filed : ∀ x ∈ s.register.map, x.1 ∈ held ∧ x.1.toNat = x.2 + 1 ∧ ¬ Taken s.log x.2
  covered : ∀ id ∈ held, ∃ n, id.toNat = n + 1 ∧ ((id,n) ∈ s.register.map ∨ Taken s.log n)
  calls : ∀ number rest, .batch number rest ∈ s.frames → ∃ held taken,
    .notifyBegan number held taken ∈ s.log ∧ (∀ n ∈ rest, n ∈ taken) ∧ ∀ n ∈ taken, n ∈ rest ∨ .invoked number n ∈ s.log
  numbers : ∀ number held taken, .notifyBegan number held taken ∈ s.log → number < s.notifies ∧ ∀ n ∈ taken, n < s.adds
  order : Chronicle Law s.log

namespace Books

variable {s : State} {held held' : List UInt64}

theorem perm (h : Books s held) (hperm : held.Perm held') : Books s held' where
  roster := h.roster
  nextId := h.nextId
  nodup := hperm.nodup_iff.mp h.nodup
  bound := fun id hid => h.bound id (hperm.mem_iff.mpr hid)
  filed := fun x hx => ⟨hperm.mem_iff.mp (h.filed x hx).1,(h.filed x hx).2⟩
  covered := fun id hid => h.covered id (hperm.mem_iff.mpr hid)
  calls := h.calls
  numbers := h.numbers
  order := h.order

theorem tokens (h : Books s held) (tokens : List (Option StopToken)) : Books { s with tokens := tokens } held :=
  ⟨h.roster,h.nextId,h.nodup,h.bound,h.filed,h.covered,h.calls,h.numbers,h.order⟩

theorem pending_lt (h : Books s held) {n : ℕ} (hn : n ∈ pending s) : n < s.adds := by
  obtain ⟨r,hadded,hpending,-⟩ := h.roster
  rw [← hadded]
  exact r.bound n (List.mem_append_left _ (hpending ▸ hn))

theorem not_taken_adds (h : Books s held) : ¬ Taken s.log s.adds := by
  rintro ⟨number,held,taken,hmem,hn⟩
  exact absurd ((h.numbers number held taken hmem).2 _ hn) (lt_irrefl _)

theorem fresh (h : Books s held) {id : UInt64} (hid : id.toNat = s.adds + 1) : ∀ x ∈ s.register.map, x.1 ≠ id := by
  rintro x hx rfl
  have hlt : x.2 < s.adds := h.pending_lt (List.mem_append_left _ (List.mem_map_of_mem hx))
  have hkey := (h.filed x hx).2.1
  omega

theorem not_held (h : Books s held) {id : UInt64} (hid : id.toNat = s.adds + 1) : id ∉ held := by
  intro hmem
  have hle := h.bound id hmem
  omega

/-- The books after a step that only ends calls and registrations. -/
theorem frame {t : State} (h : Books s held) (e : Event) (hlog : t.log = s.log ++ [e]) (he : e.invoked? = none)
    (hbegan : ∀ number held taken, e ≠ .notifyBegan number held taken) (hlaw : Law s.log e)
    (hregister : t.register.nextId = s.register.nextId) (hmap : t.register.map.Sublist s.register.map)
    (hwaiting : waiting t.frames = waiting s.frames) (hframes : ∀ f ∈ t.frames, f ∈ s.frames)
    (hsub : held'.Sublist held) (hfiled : ∀ x ∈ t.register.map, x.1 ∈ held')
    (hcovered : ∀ id ∈ held', ∀ n, (id,n) ∈ s.register.map → (id,n) ∈ t.register.map)
    (hsame : (t.adds,t.notifies) = (s.adds,s.notifies)) : Books t held' := by
  simp only [Prod.mk.injEq] at hsame
  obtain ⟨hadds,hnotifies⟩ := hsame
  have hgrow : ∀ e ∈ s.log, e ∈ t.log := fun e he => hlog ▸ List.mem_append_left _ he
  have htaken : ∀ n, Taken t.log n ↔ Taken s.log n := fun n => hlog ▸ taken_snoc_of_ne hbegan
  obtain ⟨r,hadded,hpending,hinvoked⟩ := h.roster
  have hsubperm : (pending t).Subperm r.pending := by
    rw [hpending,pending,pending,hwaiting]
    exact ((hmap.map Prod.snd).append_right _).subperm
  refine ⟨⟨r.keep (pending t) hsubperm,hadded.trans hadds.symm,rfl,?_⟩,?_,h.nodup.sublist hsub,?_,?_,?_,?_,?_,?_⟩
  · rw [hlog,invoked_append,invoked_cons,he]
    simpa [Roster.keep] using hinvoked
  · rw [hregister,hadds]
    exact h.nextId
  · intro id hid
    rw [hadds]
    exact h.bound id (hsub.subset hid)
  · intro x hx
    rw [htaken]
    exact ⟨hfiled x hx,(h.filed x (hmap.subset hx)).2⟩
  · intro id hid
    obtain ⟨n,hn,hcase⟩ := h.covered id (hsub.subset hid)
    refine ⟨n,hn,?_⟩
    rw [htaken]
    exact hcase.imp_left (hcovered id hid n)
  · intro number rest hmem
    obtain ⟨held,taken,hbegan,hrest,hdone⟩ := h.calls number rest (hframes _ hmem)
    exact ⟨held,taken,hgrow _ hbegan,hrest,fun n hn => (hdone n hn).imp_right (hgrow _)⟩
  · intro number held taken hmem
    rw [hadds,hnotifies]
    rw [hlog] at hmem
    rcases List.mem_append.mp hmem with hmem | hmem
    · exact h.numbers number held taken hmem
    · exact absurd (List.mem_singleton.mp hmem).symm (hbegan number held taken)
  · rw [hlog]
    exact h.order.snoc hlaw

end Books

theorem StopToken.held_eq (t : StopToken) : t.held.toList = if t.id = 0 then [] else [t.id] := by
  unfold StopToken.held
  split <;> rfl

/-- The end of a registration removes its callback, if it is still filed. -/
theorem books_drop {s : State} {held : List UInt64} {t : StopToken} (h : Books s (t.held.toList ++ held))
    (ht : t.id ≠ 0 → t.registered = true) : Books (s.drop t) held := by
  rw [StopToken.held_eq] at h
  by_cases hid : t.id = 0
  · rw [if_pos hid] at h
    rwa [State.drop,if_pos hid]
  · rw [if_neg hid] at h
    rw [State.drop,if_neg hid,if_pos (ht hid)]
    have hnot : t.id ∉ held := (List.nodup_cons.mp h.nodup).1
    refine h.frame (.dropped t.id (filed s.register.map t.id)) rfl rfl (by simp) ?_ rfl List.filter_sublist rfl
      (fun _ hf => hf) (List.sublist_cons_self _ _) ?_ ?_ rfl
    · refine ⟨by simp,by simp,by simp,by simp,by simp,?_,by simp⟩
      rintro id removed he n hn
      obtain ⟨rfl,rfl⟩ : t.id = id ∧ filed s.register.map t.id = removed := by simpa using he
      exact (h.filed _ (mem_filed.mp hn)).2.1
    · intro x hx
      obtain ⟨hx,hne⟩ := mem_eraseKey.mp hx
      exact (List.mem_cons.mp (h.filed x hx).1).resolve_left hne
    · intro id hmem n hn
      refine mem_eraseKey.mpr ⟨hn,?_⟩
      rintro rfl
      exact hnot hmem

theorem books_add {s : State} {held : List UInt64} (h : Books s held) (hbound : s.adds + 1 < 2 ^ 64) :
    Books { s with
      register := (s.register.add s.adds).2
      adds := s.adds + 1
      log := s.log ++ [Event.added (s.register.add s.adds).1.id s.adds] } ((s.register.nextId + 1) :: held) := by
  have hnext : (s.register.nextId + 1).toNat = s.adds + 1 := toNat_add_one h.nextId hbound
  have hmap : (s.register.add s.adds).2.map = s.register.map ++ [(s.register.nextId + 1,s.adds)] :=
    emplace_of_fresh (h.fresh hnext) _
  have htaken : ∀ n, Taken (s.log ++ [Event.added (s.register.add s.adds).1.id s.adds]) n ↔ Taken s.log n :=
    fun n => taken_snoc_of_ne (by simp)
  obtain ⟨r,hadded,hpending,hinvoked⟩ := h.roster
  have hperm : (s.register.map.map Prod.snd ++ [s.adds] ++ waiting s.frames).Perm (pending s ++ [s.adds]) := by
    rw [pending,List.append_assoc,List.append_assoc]
    exact (List.perm_append_comm).append_left _
  refine ⟨⟨r.add.keep _ (hpending ▸ hadded ▸ hperm.subperm),?_,?_,?_⟩,hnext,?_,?_,?_,?_,?_,?_,?_⟩
  · simp [Roster.keep,Roster.add,hadded]
  · simp [Roster.keep,pending,hmap,hadded]
  · simp [Roster.keep,Roster.add,hinvoked]
  · exact List.nodup_cons.mpr ⟨h.not_held hnext,h.nodup⟩
  · intro id hid
    rcases List.mem_cons.mp hid with rfl | hid
    · exact hnext.le
    · exact Nat.le_succ_of_le (h.bound id hid)
  · intro x hx
    rw [htaken]
    rw [hmap] at hx
    rcases List.mem_append.mp hx with hx | hx
    · obtain ⟨hheld,hrest⟩ := h.filed x hx
      exact ⟨List.mem_cons_of_mem _ hheld,hrest⟩
    · obtain rfl := List.mem_singleton.mp hx
      exact ⟨List.mem_cons_self,hnext,h.not_taken_adds⟩
  · intro id hid
    rw [hmap]
    rcases List.mem_cons.mp hid with rfl | hid
    · exact ⟨s.adds,hnext,Or.inl (by simp)⟩
    · obtain ⟨n,hn,hcase⟩ := h.covered id hid
      refine ⟨n,hn,?_⟩
      rw [htaken]
      exact hcase.imp_left (List.mem_append_left _)
  · intro number rest hmem
    obtain ⟨held,taken,hbegan,hrest,hdone⟩ := h.calls number rest hmem
    exact ⟨held,taken,List.mem_append_left _ hbegan,hrest,fun n hn => (hdone n hn).imp_right (List.mem_append_left _)⟩
  · intro number held taken hmem
    obtain ⟨hlt,hall⟩ := h.numbers number held taken (by simpa using hmem)
    exact ⟨hlt,fun n hn => Nat.lt_succ_of_lt (hall n hn)⟩
  · refine h.order.snoc ⟨?_,by simp,by simp,by simp,by simp,by simp,by simp⟩
    rintro id n he
    obtain ⟨rfl,rfl⟩ : (s.register.add s.adds).1.id = id ∧ s.adds = n := by simpa using he
    exact hnext

/-- `notify_all` takes out what is filed: the callbacks of live tokens that no earlier one took out. -/
theorem books_notifyAll {s : State} {held : List UInt64} (h : Books s held) :
    Books { s with
      register := s.register.takeAll.2
      notifies := s.notifies + 1
      frames := .batch s.notifies s.register.takeAll.1 :: s.frames
      log := s.log ++ [Event.notifyBegan s.notifies held s.register.takeAll.1] } held := by
  have htaken : ∀ n, Taken (s.log ++ [Event.notifyBegan s.notifies held s.register.takeAll.1]) n ↔
      Taken s.log n ∨ n ∈ s.register.takeAll.1 := by
    intro n
    rw [taken_snoc_iff]
    refine or_congr_right ⟨?_,fun hn => ⟨_,_,_,rfl,hn⟩⟩
    rintro ⟨number,held',taken,heq,hn⟩
    simp only [Event.notifyBegan.injEq] at heq
    exact heq.2.2 ▸ hn
  obtain ⟨r,hadded,hpending,hinvoked⟩ := h.roster
  refine ⟨⟨r,hadded,?_,?_⟩,h.nextId,h.nodup,h.bound,by simp [StopRegister.takeAll],?_,?_,?_,?_⟩
  · simpa [pending,StopRegister.takeAll] using hpending
  · simpa using hinvoked
  · intro id hid
    obtain ⟨n,hn,hcase⟩ := h.covered id hid
    refine ⟨n,hn,Or.inr ?_⟩
    rw [htaken]
    rcases hcase with hmem | hgone
    · exact Or.inr (List.mem_map_of_mem (f := Prod.snd) hmem)
    · exact Or.inl hgone
  · intro number rest hmem
    rcases List.mem_cons.mp hmem with heq | hmem
    · simp only [Frame.batch.injEq] at heq
      obtain ⟨rfl,rfl⟩ := heq
      exact ⟨held,s.register.takeAll.1,by simp,fun _ hn => hn,fun _ hn => Or.inl hn⟩
    · obtain ⟨held',taken,hbegan,hrest,hdone⟩ := h.calls number rest hmem
      exact ⟨held',taken,List.mem_append_left _ hbegan,hrest,
        fun n hn => (hdone n hn).imp_right (List.mem_append_left _)⟩
  · intro number held' taken hmem
    rcases List.mem_append.mp hmem with hmem | hmem
    · obtain ⟨hlt,hall⟩ := h.numbers number held' taken hmem
      exact ⟨Nat.lt_succ_of_lt hlt,hall⟩
    · obtain ⟨rfl,rfl,rfl⟩ : number = s.notifies ∧ held' = held ∧ taken = s.register.takeAll.1 := by simpa using hmem
      exact ⟨Nat.lt_succ_self _,fun n hn => h.pending_lt (List.mem_append_left _ hn)⟩
  · refine h.order.snoc ⟨by simp,?_,?_,by simp,by simp,by simp,by simp⟩
    · rintro number held' taken he held'' taken' hmem
      obtain ⟨rfl,-,-⟩ : s.notifies = number ∧ held = held' ∧ s.register.takeAll.1 = taken := by simpa using he
      exact absurd (h.numbers _ _ _ hmem).1 (lt_irrefl _)
    · rintro number held' taken he n
      obtain ⟨rfl,rfl,rfl⟩ : s.notifies = number ∧ held = held' ∧ s.register.takeAll.1 = taken := by simpa using he
      constructor
      · intro hn
        obtain ⟨x,hx,rfl⟩ := List.mem_map.mp hn
        obtain ⟨hheld,hkey,hnot⟩ := h.filed x hx
        exact ⟨⟨x.1,hheld,hkey⟩,hnot⟩
      · rintro ⟨⟨id,hid,hkey⟩,hnot⟩
        obtain ⟨m,hm,hcase⟩ := h.covered id hid
        obtain rfl : m = n := by omega
        exact List.mem_map_of_mem (f := Prod.snd) (hcase.resolve_right hnot)

theorem books_runCallback {s : State} {held : List UInt64} (h : Books s held) {number i n : ℕ} {rest : List ℕ}
    {outer : List (Frame ℕ ℕ)} (hf : s.frames = .batch number rest :: outer) (hi : rest[i]? = some n) :
    Books { s with
      frames := .call number :: .batch number (rest.eraseIdx i) :: outer
      log := s.log ++ [Event.invoked number n] } held := by
  have htake : takeNext s.frames i = some (n,.batch number (rest.eraseIdx i) :: outer) := by simp [hf,takeNext,hi]
  have hperm :
      (pending s).Perm (n :: (s.register.map.map Prod.snd ++ waiting (.batch number (rest.eraseIdx i) :: outer))) :=
    ((waiting_takeNext htake).append_left _).trans List.perm_middle
  have htaken : ∀ m, Taken (s.log ++ [Event.invoked number n]) m ↔ Taken s.log m :=
    fun m => taken_snoc_of_ne (by simp)
  obtain ⟨r,hadded,hpending,hinvoked⟩ := h.roster
  obtain ⟨held',taken,hbegan,hrest,hdone⟩ := h.calls number rest (by simp [hf])
  have hn : n ∈ rest := List.mem_of_getElem? hi
  refine ⟨⟨r.invoke n _ (hpending ▸ hperm),hadded,rfl,?_⟩,h.nextId,h.nodup,h.bound,?_,?_,?_,?_,?_⟩
  · simp [Roster.invoke,hinvoked]
  · intro x hx
    rw [htaken]
    exact h.filed x hx
  · intro id hid
    obtain ⟨m,hm,hcase⟩ := h.covered id hid
    exact ⟨m,hm,hcase.imp_right (htaken m).mpr⟩
  · intro number' rest' hmem
    simp only [List.mem_cons,reduceCtorEq,false_or,Frame.batch.injEq] at hmem
    rcases hmem with ⟨rfl,rfl⟩ | hmem
    · refine ⟨held',taken,List.mem_append_left _ hbegan,fun m hm => hrest m (List.mem_of_mem_eraseIdx hm),?_⟩
      intro m hm
      rcases hdone m hm with hwaits | hran
      · rcases mem_eraseIdx_or_eq hwaits hi with rfl | hwaits
        · exact Or.inr (by simp)
        · exact Or.inl hwaits
      · exact Or.inr (List.mem_append_left _ hran)
    · obtain ⟨held'',taken',hbegan',hrest',hdone'⟩ := h.calls number' rest' (by simp [hf,hmem])
      exact ⟨held'',taken',List.mem_append_left _ hbegan',hrest',
        fun m hm => (hdone' m hm).imp_right (List.mem_append_left _)⟩
  · intro number' held'' taken' hmem
    exact h.numbers number' held'' taken' (by simpa using hmem)
  · refine h.order.snoc ⟨by simp,by simp,by simp,by simp,?_,by simp,by simp⟩
    rintro number' n' he
    obtain ⟨rfl,rfl⟩ : number = number' ∧ n = n' := by simpa using he
    refine ⟨⟨held',taken,hbegan,hrest _ hn⟩,fun hran => ?_⟩
    rw [← hinvoked] at hran
    exact r.not_pending hran (hpending ▸ hperm.mem_iff.mpr List.mem_cons_self)

theorem books_loopEnds {s : State} {held : List UInt64} (h : Books s held) {number : ℕ} {outer : List (Frame ℕ ℕ)}
    (hf : s.frames = .batch number [] :: outer) :
    Books { s with frames := outer, log := s.log ++ [Event.notifyEnded number] } held := by
  obtain ⟨held',taken,hbegan,-,hdone⟩ := h.calls number [] (by simp [hf])
  have hran : ∀ n ∈ taken, .invoked number n ∈ s.log := by
    intro n hn
    simpa using hdone n hn
  refine h.frame (.notifyEnded number) rfl rfl (by simp) ?_ rfl (List.Sublist.refl _) (by simp [hf]) ?_
    (List.Sublist.refl _) (fun x hx => (h.filed x hx).1) (fun _ _ _ hn => hn) rfl
  · refine ⟨by simp,by simp,by simp,?_,by simp,by simp,by simp⟩
    intro number' he
    obtain rfl : number = number' := by simpa using he
    exact ⟨held',taken,hbegan,hran⟩
  · exact fun f hmem => hf ▸ List.mem_cons_of_mem _ hmem

theorem books_callbackReturns {s : State} {held : List UInt64} (h : Books s held) {number : ℕ}
    {outer : List (Frame ℕ ℕ)} (hf : s.frames = .call number :: outer) :
    Books { s with frames := outer } held := by
  have hpending : pending { s with frames := outer } = pending s := by simp [pending,hf]
  refine ⟨?_,h.nextId,h.nodup,h.bound,h.filed,h.covered,?_,h.numbers,h.order⟩
  · rw [hpending]
    exact h.roster
  · exact fun number' rest hmem => h.calls number' rest (hf ▸ List.mem_cons_of_mem _ hmem)

section Tokens

variable {s : State} {i : ℕ} {t : StopToken}

theorem token_eq (h : s.token i = some t) : s.tokens[i]? = some (some t) := by
  simpa [State.token,Option.join_eq_some_iff] using h

theorem held_setToken (h : s.token i = some t) (o : Option StopToken) : ∃ rest,
    s.held.Perm (t.held.toList ++ rest) ∧ (s.setToken i o).held.Perm ((o.bind StopToken.held).toList ++ rest) := by
  have hplace := token_eq h
  let f : Option StopToken → Option UInt64 := fun t => t.bind StopToken.held
  exact ⟨(s.tokens.eraseIdx i).filterMap f,filterMap_perm f hplace,filterMap_set_perm f hplace o⟩

@[simp] theorem held_emptied : t.emptied.held = none := rfl
@[simp] theorem held_null : StopToken.null.held = none := rfl

@[simp] theorem held_newToken : (s.newToken t).held = s.held ++ t.held.toList := by
  cases ht : t.held <;> simp [State.held,State.newToken,List.filterMap_append,ht]

@[simp] theorem held_drop : (s.drop t).held = s.held := by
  unfold State.drop
  split
  · rfl
  · split <;> rfl

/-- A token that holds something was given out by the register. -/
def Sane (s : State) : Prop := ∀ i t, s.token i = some t → t.id ≠ 0 → t.registered = true

theorem Sane.set (h : Sane s) {o : Option StopToken} (ho : ∀ t, o = some t → t.id ≠ 0 → t.registered = true) :
    Sane (s.setToken i o) := by
  intro j u hu
  by_cases hij : i = j
  · subst hij
    have hplace := token_eq hu
    simp only [State.setToken,List.getElem?_set,if_pos] at hplace
    split at hplace
    · exact ho u (Option.some.inj hplace)
    · simp at hplace
  · exact h j u (by simpa [State.token,State.setToken,List.getElem?_set,hij] using hu)

theorem Sane.new (h : Sane s) (ht : t.id ≠ 0 → t.registered = true) : Sane (s.newToken t) := by
  intro j u hu
  have hplace := token_eq hu
  simp only [State.newToken] at hplace
  by_cases hlt : j < s.tokens.length
  · rw [List.getElem?_append_left hlt] at hplace
    exact h j u (by simp [State.token,hplace])
  · rw [List.getElem?_append_right (by omega)] at hplace
    obtain rfl : u = t := by simpa using List.mem_of_getElem? hplace
    exact ht

theorem Sane.drop (h : Sane s) (t : StopToken) : Sane (s.drop t) := by
  unfold State.drop
  split
  · exact h
  · split
    · exact h
    · exact h

end Tokens

/-- The books of the ids that live tokens hold between two operations. -/
structure Kept (s : State) : Prop where
  books : Books s s.held
  sane : Sane s

theorem Books.setToken {s : State} {held : List UInt64} (h : Books s held) (i : ℕ) (o : Option StopToken) :
    Books (s.setToken i o) held := h.tokens _

theorem Books.newToken {s : State} {held : List UInt64} (h : Books s held) (t : StopToken) :
    Books (s.newToken t) held := h.tokens _

/-- A token that is emptied or destroyed gives up what it holds. -/
theorem kept_drop {s : State} (h : Kept s) {i : ℕ} {t : StopToken} (ht : s.token i = some t) {o : Option StopToken}
    (ho : o.bind StopToken.held = none) (hsane : ∀ u, o = some u → u.id ≠ 0 → u.registered = true) :
    Kept ((s.setToken i o).drop t) := by
  obtain ⟨rest,hbefore,hafter⟩ := held_setToken ht o
  rw [ho] at hafter
  have hbooks : Books (s.setToken i o) (t.held.toList ++ rest) := (h.books.perm hbefore).setToken i o
  refine ⟨?_,(h.sane.set hsane).drop t⟩
  rw [held_drop]
  exact (books_drop hbooks (h.sane i t ht)).perm hafter.symm

theorem kept_add {s : State} (h : Kept s) (hbound : s.adds + 1 < 2 ^ 64) : Kept s.add := by
  have hbooks := (books_add h.books hbound).newToken ⟨s.register.nextId + 1,true⟩
  have hne : s.register.nextId + 1 ≠ 0 := by
    intro heq
    have hnext := toNat_add_one h.books.nextId hbound
    rw [heq] at hnext
    exact absurd hnext (by simp)
  refine ⟨?_,Sane.new h.sane fun _ => rfl⟩
  have hheld : s.add.held = s.held ++ [s.register.nextId + 1] := by
    unfold State.add
    rw [held_newToken]
    simp [StopToken.held,StopRegister.add,hne,State.held,State.emit]
  rw [hheld]
  exact hbooks.perm (List.perm_append_singleton _ _).symm

theorem kept_moveConstruct {s t : State} (h : Kept s) {i : ℕ} (hstep : s.moveConstruct i = some t) : Kept t := by
  obtain ⟨u,hu,rfl⟩ := Option.map_eq_some_iff.mp hstep
  obtain ⟨rest,hbefore,hafter⟩ := held_setToken hu (some u.emptied)
  refine ⟨?_,Sane.new (h.sane.set ?_) (h.sane i u hu)⟩
  · rw [held_newToken]
    refine ((h.books.setToken i (some u.emptied)).newToken u).perm ?_
    refine hbefore.trans (List.perm_append_comm.trans ?_)
    exact hafter.symm.append_right _
  · rintro v hv
    obtain rfl : u.emptied = v := by simpa using hv
    exact fun hid => absurd rfl hid

theorem kept_moveAssign {s t : State} (h : Kept s) {i j : ℕ} (hstep : s.moveAssign i j = some t) : Kept t := by
  obtain ⟨tmp,htmp,hstep⟩ := Option.bind_eq_some_iff.mp hstep
  obtain ⟨old,hold,rfl⟩ := Option.map_eq_some_iff.mp hstep
  obtain ⟨rest,hbefore,hafter⟩ := held_setToken htmp (some tmp.emptied)
  obtain ⟨rest',hbefore',hafter'⟩ := held_setToken hold (some tmp)
  have hsane : Sane (s.setToken j (some tmp.emptied)) := by
    refine h.sane.set ?_
    rintro v hv
    obtain rfl : tmp.emptied = v := by simpa using hv
    exact fun hid => absurd rfl hid
  -- The temporary and the target exchange what they hold; then the temporary gives up the old registration.
  have hrest : rest.Perm (old.held.toList ++ rest') := hafter.symm.trans hbefore'
  have hswap : (tmp.held.toList ++ (old.held.toList ++ rest')).Perm
      (old.held.toList ++ (tmp.held.toList ++ rest')) := by
    rw [← List.append_assoc,← List.append_assoc]
    exact List.perm_append_comm.append_right _
  have hperm : s.held.Perm (old.held.toList ++ ((s.setToken j (some tmp.emptied)).setToken i (some tmp)).held) :=
    hbefore.trans ((hrest.append_left _).trans (hswap.trans (hafter'.symm.append_left _)))
  have hbooks := ((h.books.perm hperm).setToken j (some tmp.emptied)).setToken i (some tmp)
  refine ⟨?_,(hsane.set ?_).drop old⟩
  · rw [held_drop]
    exact books_drop hbooks (hsane i old hold)
  · rintro v hv
    obtain rfl : tmp = v := by simpa using hv
    exact h.sane j tmp htmp

theorem kept_swap {s t : State} (h : Kept s) {i j : ℕ} (hstep : s.swap i j = some t) : Kept t := by
  obtain ⟨u,hu,hstep⟩ := Option.bind_eq_some_iff.mp hstep
  obtain ⟨v,hv,rfl⟩ := Option.map_eq_some_iff.mp hstep
  have hperm : s.held.Perm ((s.setToken i (some v)).setToken j (some u)).held :=
    (filterMap_swap_perm _ (token_eq hu) (token_eq hv)).symm
  refine ⟨((h.books.perm hperm).setToken i (some v)).setToken j (some u),(h.sane.set ?_).set ?_⟩
  · rintro w hw
    obtain rfl : v = w := by simpa using hw
    exact h.sane j v hv
  · rintro w hw
    obtain rfl : u = w := by simpa using hw
    exact h.sane i u hu

theorem kept_operate {s t : State} {a : Action} (h : Kept s) (hbound : t.adds < 2 ^ 64)
    (hstep : operate s a = some t) : Kept t := by
  cases a with
  | null =>
    obtain rfl := Option.some.inj hstep
    refine ⟨?_,h.sane.new (fun hid => absurd rfl hid)⟩
    rw [held_newToken,held_null,Option.toList_none,List.append_nil]
    exact h.books.newToken StopToken.null
  | add =>
    obtain rfl := Option.some.inj hstep
    exact kept_add h hbound
  | moveConstruct i => exact kept_moveConstruct h hstep
  | moveAssign i j => exact kept_moveAssign h hstep
  | swap i j => exact kept_swap h hstep
  | reset i =>
    obtain ⟨u,hu,rfl⟩ := Option.map_eq_some_iff.mp hstep
    refine kept_drop h hu held_emptied ?_
    rintro v hv
    obtain rfl : u.emptied = v := by simpa using hv
    exact fun hid => absurd rfl hid
  | destroy i =>
    obtain ⟨u,hu,rfl⟩ := Option.map_eq_some_iff.mp hstep
    exact kept_drop h hu rfl (by simp)
  | notifyAll =>
    obtain rfl := Option.some.inj hstep
    exact ⟨books_notifyAll h.books,h.sane⟩
  | runCallback i => simp [operate] at hstep
  | loopEnds => simp [operate] at hstep
  | callbackReturns => simp [operate] at hstep

theorem kept_step {s t : State} {a : Action} (h : Kept s) (hbound : t.adds < 2 ^ 64)
    (hstep : step s a = some t) : Kept t := by
  cases a with
  | runCallback i =>
    simp only [step] at hstep
    split at hstep
    · next number rest outer hf =>
      obtain ⟨⟨n,frames⟩,hn,rfl⟩ := Option.map_eq_some_iff.mp hstep
      obtain ⟨number',rest',outer',hf',hi,rfl⟩ := takeNext_cases hn
      rw [hf] at hf'
      simp only [List.cons.injEq,Frame.batch.injEq] at hf'
      obtain ⟨⟨rfl,rfl⟩,rfl⟩ := hf'
      exact ⟨books_runCallback h.books hf hi,h.sane⟩
    · simp at hstep
  | loopEnds =>
    simp only [step] at hstep
    split at hstep
    · next number outer hf =>
      obtain rfl := Option.some.inj hstep
      exact ⟨books_loopEnds h.books hf,h.sane⟩
    · simp at hstep
  | callbackReturns =>
    simp only [step] at hstep
    split at hstep
    · next number outer hf =>
      obtain rfl := Option.some.inj hstep
      exact ⟨books_callbackReturns h.books hf,h.sane⟩
    · simp at hstep
  | _ =>
    simp only [step] at hstep
    split at hstep
    · exact kept_operate h hbound hstep
    · simp at hstep

theorem adds_drop (s : State) (t : StopToken) : (s.drop t).adds = s.adds := by
  unfold State.drop
  split
  · rfl
  · split <;> rfl

theorem adds_operate {s t : State} {a : Action} (hstep : operate s a = some t) : s.adds ≤ t.adds := by
  cases a with
  | add =>
    obtain rfl := Option.some.inj hstep
    exact Nat.le_succ _
  | null =>
    obtain rfl := Option.some.inj hstep
    exact le_rfl
  | notifyAll =>
    obtain rfl := Option.some.inj hstep
    exact le_rfl
  | moveConstruct i =>
    obtain ⟨u,-,rfl⟩ := Option.map_eq_some_iff.mp hstep
    exact le_rfl
  | moveAssign i j =>
    obtain ⟨u,-,hstep⟩ := Option.bind_eq_some_iff.mp hstep
    obtain ⟨v,-,rfl⟩ := Option.map_eq_some_iff.mp hstep
    rw [adds_drop]
    exact le_rfl
  | swap i j =>
    obtain ⟨u,-,hstep⟩ := Option.bind_eq_some_iff.mp hstep
    obtain ⟨v,-,rfl⟩ := Option.map_eq_some_iff.mp hstep
    exact le_rfl
  | reset i =>
    obtain ⟨u,-,rfl⟩ := Option.map_eq_some_iff.mp hstep
    rw [adds_drop]
    exact le_rfl
  | destroy i =>
    obtain ⟨u,-,rfl⟩ := Option.map_eq_some_iff.mp hstep
    rw [adds_drop]
    exact le_rfl
  | runCallback i => simp [operate] at hstep
  | loopEnds => simp [operate] at hstep
  | callbackReturns => simp [operate] at hstep

theorem adds_mono {s t : State} {a : Action} (hstep : step s a = some t) : s.adds ≤ t.adds := by
  cases a with
  | runCallback i =>
    simp only [step] at hstep
    split at hstep
    · obtain ⟨x,-,rfl⟩ := Option.map_eq_some_iff.mp hstep
      exact le_rfl
    · simp at hstep
  | loopEnds =>
    simp only [step] at hstep
    split at hstep
    · obtain rfl := Option.some.inj hstep
      exact le_rfl
    · simp at hstep
  | callbackReturns =>
    simp only [step] at hstep
    split at hstep
    · obtain rfl := Option.some.inj hstep
      exact le_rfl
    · simp at hstep
  | _ =>
    simp only [step] at hstep
    split at hstep
    · exact adds_operate hstep
    · simp at hstep

structure InStep (s : State) : Prop where
  distinct : ∀ i j t u, s.token i = some t → s.token j = some u → t.id = u.id → t.id ≠ 0 → i = j
  filed : ∀ id n, (id,n) ∈ s.register.map ↔ id ∈ s.held ∧ id.toNat = n + 1 ∧ ¬ Taken s.log n
  atMostOnce : (invoked s.log).Nodup
  order : ∀ before e after, s.log = before ++ e :: after → Law before e

theorem reachable_kept {s : State} (h : machine.Reachable s) (hbound : s.adds < 2 ^ 64) : Kept s := by
  refine h.invariant (I := fun s => s.adds < 2 ^ 64 → Kept s) ?_ ?_ hbound
  · rintro s rfl -
    refine ⟨⟨⟨Roster.empty,rfl,rfl,rfl⟩,rfl,?_,?_,?_,?_,?_,?_,Chronicle.nil⟩,?_⟩
    · simp [State.held,State.init]
    · simp [State.held,State.init]
    · simp [State.init,StopRegister.empty]
    · simp [State.held,State.init]
    · simp [State.init]
    · simp [State.init]
    · intro i t ht
      simp [State.token,State.init] at ht
  · intro s a t h ha hbound
    exact kept_step (h (lt_of_le_of_lt (adds_mono ha) hbound)) hbound ha

/-- The register and its tokens stay in step, in every run with less than `2 ^ 64` calls of `add`. -/
theorem register_in_step {s : State} (h : machine.Reachable s) (hbound : s.adds < 2 ^ 64) : InStep s := by
  have hkept := reachable_kept h hbound
  have hbooks := hkept.books
  refine ⟨?_,?_,?_,hbooks.order⟩
  · intro i j t u ht hu hid hne
    let f : Option StopToken → Option UInt64 := fun t => t.bind StopToken.held
    have hft : f (some t) = some t.id := by simp [f,StopToken.held,hne]
    have hfu : f (some u) = some t.id := by simp [f,StopToken.held,← hid,hne]
    exact place_unique f hbooks.nodup (token_eq ht) (token_eq hu) hft hfu
  · intro id n
    constructor
    · exact fun hmem => hbooks.filed _ hmem
    · rintro ⟨hheld,hkey,hnot⟩
      obtain ⟨m,hm,hcase⟩ := hbooks.covered id hheld
      obtain rfl : m = n := by omega
      exact hcase.resolve_right hnot
  · obtain ⟨r,-,-,hinvoked⟩ := hbooks.roster
    exact hinvoked ▸ r.invoked_nodup

/-- Three registrations, of which one is assigned over by another and one to itself; the first callback
that runs adds a fourth and destroys a token that was notified. -/
def reentrantAdd : List Action :=
  [.add,.add,.add,.moveAssign 0 1,.moveAssign 2 2,.notifyAll,.runCallback 0,.add,.destroy 2,.callbackReturns,
    .runCallback 0,.notifyAll,.runCallback 0,.callbackReturns,.loopEnds,.callbackReturns,.loopEnds]

theorem register_in_step_reentrantAdd :
    ∃ s, machine.replay State.init reentrantAdd = some s ∧ invoked s.log = [1,2,3] ∧ InStep s := by
  have hrun : machine.replay State.init reentrantAdd = some _ := rfl
  exact ⟨_,hrun,rfl,register_in_step (Machine.Reachable.of_replay rfl hrun) (by decide)⟩

end StopTokens
end BeastWebsocketEcho
