import BeastWebsocketEcho.Chronicle

/-!
# One-shot callbacks

A registry keeps callbacks under their keys. A notification takes all of them out and runs
them one after the other; a callback that runs may do anything, also begin another
notification. The calls in progress are frames, innermost first.

A roster is the account of callbacks numbered in the order in which they were added: which
of them are still to be run, and which were run. No callback can be in it twice.
-/

namespace BeastWebsocketEcho

section Registry

variable {K V : Type*} [BEq K]

/-- An insertion, which leaves an entry that is there alone. -/
def emplace (m : List (K × V)) (k : K) (v : V) : List (K × V) :=
  if m.any (fun x => x.1 == k) then m else m ++ [(k,v)]

def eraseKey (m : List (K × V)) (k : K) : List (K × V) := m.filter fun x => x.1 != k

def filed (m : List (K × V)) (k : K) : List V := (m.filter fun x => x.1 == k).map Prod.snd

theorem emplace_of_fresh [LawfulBEq K] {m : List (K × V)} {k : K} (h : ∀ x ∈ m, x.1 ≠ k) (v : V) :
    emplace m k v = m ++ [(k,v)] := by
  refine if_neg ?_
  simp only [List.any_eq_true,beq_iff_eq,not_exists,not_and]
  exact h

theorem mem_filed [LawfulBEq K] {m : List (K × V)} {k : K} {v : V} : v ∈ filed m k ↔ (k,v) ∈ m := by
  simp [filed]

theorem mem_eraseKey [LawfulBEq K] {m : List (K × V)} {k : K} {x : K × V} :
    x ∈ eraseKey m k ↔ x ∈ m ∧ x.1 ≠ k := by
  simp [eraseKey]

theorem toNat_add_one {id : UInt64} {n : ℕ} (h : id.toNat = n) (hn : n + 1 < 2 ^ 64) : (id + 1).toNat = n + 1 := by
  have hone : (1 : UInt64).toNat = 1 := rfl
  rw [UInt64.toNat_add,h,hone,Nat.mod_eq_of_lt hn]

end Registry

/-- A callback that runs, with what its caller goes on to do, or the loop of a notification
with the callbacks it has still to run. -/
inductive Frame (C K : Type*)
  | call (caller : K)
  | batch (number : ℕ) (rest : List C)

section Frames

variable {C K : Type*}

def Frame.rest : Frame C K → List C
  | .call _ => []
  | .batch _ rest => rest

/-- The callbacks that were taken out and did not run yet. -/
def waiting (frames : List (Frame C K)) : List C := frames.flatMap Frame.rest

@[simp] theorem waiting_nil : waiting ([] : List (Frame C K)) = [] := rfl
@[simp] theorem waiting_call (caller : K) (frames : List (Frame C K)) :
    waiting (.call caller :: frames) = waiting frames := rfl
@[simp] theorem waiting_batch (number : ℕ) (rest : List C) (frames : List (Frame C K)) :
    waiting (.batch number rest :: frames) = rest ++ waiting frames := rfl
@[simp] theorem waiting_append (fs gs : List (Frame C K)) : waiting (fs ++ gs) = waiting fs ++ waiting gs := by
  simp [waiting]

def free : List (Frame C K) → Bool
  | .batch _ _ :: _ => false
  | _ => true

/-- The innermost notification takes one of the callbacks it has still to run. -/
def takeNext (frames : List (Frame C K)) (i : ℕ) : Option (C × List (Frame C K)) :=
  match frames with
  | .batch number rest :: frames => (rest[i]?).map fun c => (c,.batch number (rest.eraseIdx i) :: frames)
  | _ => none

theorem takeNext_cases {frames frames' : List (Frame C K)} {i : ℕ} {c : C}
    (h : takeNext frames i = some (c,frames')) :
    ∃ number rest outer, frames = .batch number rest :: outer ∧ rest[i]? = some c ∧
      frames' = .batch number (rest.eraseIdx i) :: outer := by
  match frames with
  | .batch number rest :: outer =>
    obtain ⟨d,hd,he⟩ := Option.map_eq_some_iff.mp h
    simp only [Prod.mk.injEq] at he
    obtain ⟨rfl,rfl⟩ := he
    exact ⟨number,rest,outer,rfl,hd,rfl⟩
  | .call caller :: outer => simp [takeNext] at h
  | [] => simp [takeNext] at h

theorem waiting_takeNext {frames frames' : List (Frame C K)} {i : ℕ} {c : C}
    (h : takeNext frames i = some (c,frames')) : (waiting frames).Perm (c :: waiting frames') := by
  obtain ⟨number,rest,outer,rfl,hi,rfl⟩ := takeNext_cases h
  obtain ⟨hlt,rfl⟩ := List.getElem?_eq_some_iff.mp hi
  have hperm : rest.Perm (rest[i] :: rest.eraseIdx i) := (List.getElem_cons_eraseIdx_perm hlt).symm
  exact hperm.append_right (waiting outer)

end Frames

section Places

variable {A B : Type*} {l : List A} {i : ℕ} {x : A} (f : A → Option B)

theorem filterMap_perm (h : l[i]? = some x) : (l.filterMap f).Perm ((f x).toList ++ (l.eraseIdx i).filterMap f) := by
  obtain ⟨hlt,rfl⟩ := List.getElem?_eq_some_iff.mp h
  have hperm := (List.getElem_cons_eraseIdx_perm hlt).symm.filterMap f
  rwa [filterMap_cons_toList] at hperm

theorem filterMap_set_perm (h : l[i]? = some x) (y : A) :
    ((l.set i y).filterMap f).Perm ((f y).toList ++ (l.eraseIdx i).filterMap f) := by
  obtain ⟨hlt,-⟩ := List.getElem?_eq_some_iff.mp h
  have hget : (l.set i y)[i]? = some y := by simp [hlt]
  have herase : (l.set i y).eraseIdx i = l.eraseIdx i := by simp [List.eraseIdx_set_eq]
  simpa [herase] using filterMap_perm f hget

theorem filterMap_swap_perm {j : ℕ} {y : A} (hi : l[i]? = some x) (hj : l[j]? = some y) :
    (((l.set i y).set j x).filterMap f).Perm (l.filterMap f) := by
  obtain ⟨hlt,rfl⟩ := List.getElem?_eq_some_iff.mp hi
  obtain ⟨hlt',rfl⟩ := List.getElem?_eq_some_iff.mp hj
  exact (List.set_set_perm hlt hlt').filterMap f

theorem place_unique (hnodup : (l.filterMap f).Nodup) {j : ℕ} {y : A} {b : B} (hi : l[i]? = some x)
    (hj : l[j]? = some y) (hx : f x = some b) (hy : f y = some b) : i = j := by
  by_contra hne
  have hperm := filterMap_perm f hi
  rw [hx] at hperm
  have hcons : (b :: (l.eraseIdx i).filterMap f).Nodup := hperm.nodup_iff.mp hnodup
  have hmem : y ∈ l.eraseIdx i := List.mem_eraseIdx_iff_getElem?.mpr ⟨j,Ne.symm hne,hj⟩
  exact (List.nodup_cons.mp hcons).1 (List.mem_filterMap.mpr ⟨y,hmem,hy⟩)

end Places

structure Roster where
  added : ℕ
  pending : List ℕ
  invoked : List ℕ
  nodup : (pending ++ invoked).Nodup
  bound : ∀ n ∈ pending ++ invoked, n < added

namespace Roster

def empty : Roster := ⟨0,[],[],by simp,by simp⟩

def add (r : Roster) : Roster where
  added := r.added + 1
  pending := r.pending ++ [r.added]
  invoked := r.invoked
  nodup := by
    have hnew : r.added ∉ r.pending ++ r.invoked := fun hmem => (r.bound _ hmem).false
    have hperm : (r.pending ++ [r.added] ++ r.invoked).Perm (r.added :: (r.pending ++ r.invoked)) := by simp
    exact hperm.nodup_iff.mpr (List.nodup_cons.mpr ⟨hnew,r.nodup⟩)
  bound := by
    intro n hn
    by_cases heq : n = r.added
    · omega
    · have hold : n ∈ r.pending ++ r.invoked := by simpa [heq] using hn
      exact Nat.lt_succ_of_lt (r.bound n hold)

def runNow (r : Roster) : Roster where
  added := r.added + 1
  pending := r.pending
  invoked := r.invoked ++ [r.added]
  nodup := by
    have hnew : r.added ∉ r.pending ++ r.invoked := fun hmem => (r.bound _ hmem).false
    rw [← List.append_assoc]
    exact List.nodup_append.mpr ⟨r.nodup,by simp,by
      rintro n hn m hm rfl
      obtain rfl := List.mem_singleton.mp hm
      exact hnew hn⟩
  bound := by
    intro n hn
    by_cases heq : n = r.added
    · omega
    · have hold : n ∈ r.pending ++ r.invoked := by simpa [heq] using hn
      exact Nat.lt_succ_of_lt (r.bound n hold)

/-- Some callbacks are given up, and the others are put in another order. -/
def keep (r : Roster) (pending : List ℕ) (h : pending.Subperm r.pending) : Roster where
  added := r.added
  pending := pending
  invoked := r.invoked
  nodup := by
    obtain ⟨l,hperm,hsub⟩ := h
    exact (hperm.append_right _).nodup_iff.mp (r.nodup.sublist (hsub.append_right _))
  bound := by
    intro n hn
    refine r.bound n ?_
    rcases List.mem_append.mp hn with hn | hn
    · exact List.mem_append_left _ (h.subset hn)
    · exact List.mem_append_right _ hn

/-- A callback is run, and the others wait in any order. -/
def invoke (r : Roster) (n : ℕ) (rest : List ℕ) (h : r.pending.Perm (n :: rest)) : Roster where
  added := r.added
  pending := rest
  invoked := r.invoked ++ [n]
  nodup := by
    have hperm : (r.pending ++ r.invoked).Perm (rest ++ (r.invoked ++ [n])) := by
      refine (h.append_right _).trans ?_
      rw [← List.append_assoc]
      exact (List.perm_append_singleton n (rest ++ r.invoked)).symm
    exact hperm.nodup_iff.mp r.nodup
  bound := by
    have hperm : (r.pending ++ r.invoked).Perm (rest ++ (r.invoked ++ [n])) := by
      refine (h.append_right _).trans ?_
      rw [← List.append_assoc]
      exact (List.perm_append_singleton n (rest ++ r.invoked)).symm
    exact fun m hm => r.bound m (hperm.mem_iff.mpr hm)

theorem not_pending (r : Roster) {n : ℕ} (h : n ∈ r.invoked) : n ∉ r.pending :=
  fun hp => (List.nodup_append.mp r.nodup).2.2 n hp n h rfl

theorem invoked_nodup (r : Roster) : r.invoked.Nodup := (List.nodup_append.mp r.nodup).2.1

theorem pending_nodup (r : Roster) : r.pending.Nodup := (List.nodup_append.mp r.nodup).1

def Complete (r : Roster) : Prop := ∀ n < r.added, n ∈ r.pending ++ r.invoked

theorem Complete.add {r : Roster} (h : r.Complete) : r.add.Complete := by
  intro n hn
  by_cases heq : n = r.added
  · simp [Roster.add,heq]
  · have hold := h n (by simp only [Roster.add] at hn; omega)
    simp only [Roster.add,List.mem_append] at hold ⊢
    exact hold.imp_left Or.inl

theorem Complete.invoke {r : Roster} (h : r.Complete) {n : ℕ} {rest : List ℕ} (hperm : r.pending.Perm (n :: rest)) :
    (r.invoke n rest hperm).Complete := by
  intro m hm
  have hold := h m hm
  simp only [Roster.invoke,List.mem_append,hperm.mem_iff,List.mem_cons] at hold ⊢
  tauto

end Roster
end BeastWebsocketEcho
