import BeastWebsocketEcho.Chronicle
import BeastWebsocketEcho.Machine

/-!
# Objects and their owners

Objects are built in memory one after the other and numbered in that order. The memory
logs everything that is done to them. An owner holds one object or none. The machine of
the moves of ownership keeps every object with one owner, and never touches an object
that is dead; where every move destroys what it gives up, no object outlives its owner.
-/

namespace BeastWebsocketEcho

inductive Touch
  | constructed (object : ℕ)
  | movedFrom (object : ℕ)
  | destroyed (object : ℕ)
  | released (object : ℕ)
  | overwrote (object : ℕ)
  /-- An access through a pointer to no object. -/
  | stray
  deriving DecidableEq, Repr

def Touch.object : Touch → Option ℕ
  | .constructed n => some n
  | .movedFrom n => some n
  | .destroyed n => some n
  | .released n => some n
  | .overwrote n => some n
  | .stray => none

structure Memory (C : Type*) where
  contents : ℕ → Option C
  constructions : ℕ
  touches : List Touch

namespace Memory

variable {C : Type*}

def empty : Memory C := ⟨fun _ => none,0,[]⟩

def touch (m : Memory C) (e : Touch) : Memory C := { m with touches := m.touches ++ [e] }

def construct (m : Memory C) (c : Option C) : Memory C where
  contents := Function.update m.contents m.constructions c
  constructions := m.constructions + 1
  touches := m.touches ++ [.constructed m.constructions]

def moveFrom (m : Memory C) (n : ℕ) : Memory C where
  contents := Function.update m.contents n none
  constructions := m.constructions
  touches := m.touches ++ [.movedFrom n]

/-- The destructor of the object was called, or its buffer was released. -/
def dead (touches : List Touch) (n : ℕ) : Prop := .destroyed n ∈ touches ∨ .released n ∈ touches

/-- What may be done to an object, by what was done before. -/
def Allowed (before : List Touch) : Touch → Prop
  | .constructed _ => True
  | .movedFrom n => ¬ dead before n
  | .destroyed n => ¬ dead before n
  | .released n => .released n ∉ before
  | .overwrote n => .destroyed n ∈ before
  | .stray => False

/-- No dead object is touched, and none is built over while it lives. -/
def Lawful (touches : List Touch) : Prop := Chronicle Allowed touches

/-- No destructor is called twice. -/
theorem count_destroyed_le {touches : List Touch} (h : Lawful touches) (n : ℕ) :
    touches.count (.destroyed n) ≤ 1 := by
  induction touches using List.reverseRecOn with
  | nil => simp
  | append_singleton touches e ih =>
    obtain ⟨hold,hnew⟩ := Chronicle.snoc_iff.mp h
    by_cases he : e = .destroyed n
    · subst he
      have hnone : touches.count (.destroyed n) = 0 := List.count_eq_zero.mpr fun hmem => hnew (Or.inl hmem)
      simp [hnone]
    · have hsame : (touches ++ [e]).count (.destroyed n) = touches.count (.destroyed n) := by
        simp [List.count_append,he]
      rw [hsame]
      exact ih hold

end Memory

/-- How an owner gives up its object: which of the things that can be done to it are done. -/
structure Burial where
  moved : Bool
  destroyed : Bool
  released : Bool
  overwritten : Bool
  lawful : overwritten = true → destroyed = true

namespace Burial

def touchIf (b : Bool) (e : Touch) : List Touch := if b then [e] else []

def touches (b : Burial) (n : ℕ) : List Touch :=
  touchIf b.moved (.movedFrom n) ++ touchIf b.destroyed (.destroyed n) ++ touchIf b.released (.released n) ++
    touchIf b.overwritten (.overwrote n)

theorem mem_touchIf {b : Bool} {e f : Touch} : f ∈ touchIf b e ↔ b = true ∧ f = e := by
  cases b <;> simp [touchIf]

theorem object_of_mem {b : Burial} {n : ℕ} {e : Touch} (h : e ∈ b.touches n) : e.object = some n := by
  simp only [touches,List.mem_append,mem_touchIf] at h
  rcases h with ((⟨-,rfl⟩ | ⟨-,rfl⟩) | ⟨-,rfl⟩) | ⟨-,rfl⟩ <;> rfl

theorem destroyed_mem {b : Burial} {n : ℕ} : .destroyed n ∈ b.touches n ↔ b.destroyed = true := by
  simp [touches,mem_touchIf]

theorem constructed_not_mem {b : Burial} {n p : ℕ} : .constructed p ∉ b.touches n := by
  simp [touches,mem_touchIf]

theorem lawful_touchIf {touches : List Touch} {b : Bool} {e : Touch} (h : Memory.Lawful touches)
    (he : b = true → Memory.Allowed touches e) : Memory.Lawful (touches ++ touchIf b e) := by
  cases b with
  | false => simpa [touchIf] using h
  | true => exact Chronicle.snoc h (he rfl)

/-- What is done to a living object is allowed. -/
theorem lawful_append {touches : List Touch} {n : ℕ} (h : Memory.Lawful touches) (hn : ¬ Memory.dead touches n)
    (b : Burial) : Memory.Lawful (touches ++ b.touches n) := by
  rw [Memory.dead,not_or] at hn
  unfold Burial.touches
  rw [← List.append_assoc,← List.append_assoc,← List.append_assoc]
  apply lawful_touchIf
  · apply lawful_touchIf
    · apply lawful_touchIf
      · exact lawful_touchIf h fun _ => by simp [Memory.Allowed,Memory.dead,hn]
      · exact fun _ => by simp [Memory.Allowed,Memory.dead,mem_touchIf,hn]
    · exact fun _ => by simp [Memory.Allowed,mem_touchIf,hn]
  · intro hover
    simp [Memory.Allowed,mem_touchIf,b.lawful hover]

end Burial

def Single {I : Type*} (f : I → Option ℕ) : Prop := ∀ i j n, f i = some n → f j = some n → i = j

section Single

variable {I : Type*} [DecidableEq I] {f : I → Option ℕ} {i j l : I} {v : Option ℕ} {n : ℕ}

theorem update_some_iff : Function.update f i v j = some n ↔ (j = i ∧ v = some n) ∨ (j ≠ i ∧ f j = some n) := by
  by_cases hij : j = i
  · subst hij
    simp
  · simp [hij]

/-- What is held after it was passed on. -/
theorem pass_some_iff : Function.update (Function.update f j none) i (f j) l = some n ↔
    (l = i ∧ f j = some n) ∨ (l ≠ i ∧ l ≠ j ∧ f l = some n) := by
  rw [update_some_iff,update_some_iff]
  simp

theorem Single.add (h : Single f) (hn : ∀ l, f l ≠ some n) (i : I) : Single (Function.update f i (some n)) := by
  intro j k m hj hk
  rcases update_some_iff.mp hj with ⟨rfl,hm⟩ | ⟨-,hm⟩
  · rcases update_some_iff.mp hk with ⟨rfl,-⟩ | ⟨-,hm'⟩
    · rfl
    · exact absurd (hm ▸ hm') (hn k)
  · rcases update_some_iff.mp hk with ⟨rfl,hm'⟩ | ⟨-,hm'⟩
    · exact absurd (hm' ▸ hm) (hn j)
    · exact h j k m hm hm'

theorem Single.pass (h : Single f) (i j : I) : Single (Function.update (Function.update f j none) i (f j)) := by
  intro l l' m hl hl'
  rcases pass_some_iff.mp hl with ⟨rfl,hm⟩ | ⟨-,hlj,hm⟩
  · rcases pass_some_iff.mp hl' with ⟨rfl,-⟩ | ⟨-,hlj,hm'⟩
    · rfl
    · exact absurd (h l' j m hm' hm) hlj
  · rcases pass_some_iff.mp hl' with ⟨rfl,hm'⟩ | ⟨-,-,hm'⟩
    · exact absurd (h l j m hm hm') hlj
    · exact h l l' m hm hm'

theorem of_update_none (hj : Function.update f i none j = some n) : j ≠ i ∧ f j = some n := by
  rcases update_some_iff.mp hj with ⟨-,hn⟩ | hold
  · simp at hn
  · exact hold

theorem Single.remove (h : Single f) (i : I) : Single (Function.update f i none) :=
  fun j k m hj hk => h j k m (of_update_none hj).2 (of_update_none hk).2

theorem of_pass (hl : Function.update (Function.update f j none) i (f j) l = some n) : ∃ l', f l' = some n := by
  rcases pass_some_iff.mp hl with ⟨-,hn⟩ | ⟨-,-,hn⟩
  · exact ⟨j,hn⟩
  · exact ⟨l,hn⟩

end Single

/-- Who holds which object. -/
structure Holding (I C : Type*) where
  target : I → Option ℕ
  memory : Memory C

/-- A new object for an owner, the same object for another owner, or an object given up. -/
inductive Move (I C : Type*)
  | gain (owner : I) (content : C)
  | pass (source owner : I)
  | bury (owner : I) (burial : Burial)

def Move.clean : Move I C → Bool
  | .bury _ b => b.destroyed
  | _ => true

namespace Holding

variable {I C : Type*} {h k : Holding I C}

def init : Holding I C := ⟨fun _ => none,Memory.empty⟩

/-- Every object that is held has one holder, a content, and lives. -/
structure Owned (h : Holding I C) : Prop where
  unique : Single h.target
  content : ∀ i n, h.target i = some n → (h.memory.contents n).isSome
  living : ∀ i n, h.target i = some n → ¬ Memory.dead h.memory.touches n
  built : ∀ i n, h.target i = some n → .constructed n ∈ h.memory.touches
  bound : ∀ e ∈ h.memory.touches, ∀ n, e.object = some n → n < h.memory.constructions
  law : Memory.Lawful h.memory.touches

theorem owned_init : Owned (init : Holding I C) where
  unique := by simp [init,Single]
  content := by simp [init]
  living := by simp [init]
  built := by simp [init]
  bound := by simp [init,Memory.empty]
  law := Chronicle.nil

theorem Owned.target_lt (hh : Owned h) {i : I} {n : ℕ} (hi : h.target i = some n) :
    n < h.memory.constructions := hh.bound _ (hh.built i n hi) n rfl

def held (h : Holding I C) (i : I) : Option C := (h.target i).bind h.memory.contents

def Covered (h : Holding I C) : Prop :=
  ∀ n, .constructed n ∈ h.memory.touches → .destroyed n ∉ h.memory.touches → ∃ i, h.target i = some n

theorem covered_init : Covered (init : Holding I C) := by
  intro n hn
  simp [init,Memory.empty] at hn

/-- An object that nobody holds, built and not destroyed. -/
def Orphan (h : Holding I C) (n : ℕ) : Prop :=
  .constructed n ∈ h.memory.touches ∧ .destroyed n ∉ h.memory.touches ∧ ∀ i, h.target i ≠ some n

theorem Orphan.not_covered {n : ℕ} (ho : Orphan h n) : ¬ Covered h := by
  intro hh
  obtain ⟨i,hi⟩ := hh n ho.1 ho.2.1
  exact ho.2.2 i hi

variable [DecidableEq I]

/-- The memory after what is done to an object that is given up. -/
def buried (m : Memory C) (b : Burial) (n : ℕ) : Memory C where
  contents := if b.moved then Function.update m.contents n none else m.contents
  constructions := m.constructions
  touches := m.touches ++ b.touches n

def step (h : Holding I C) : Move I C → Option (Holding I C)
  | .gain i c =>
    if h.target i = none then
      some ⟨Function.update h.target i (some h.memory.constructions),h.memory.construct (some c)⟩
    else none
  | .pass j i =>
    if h.target i = none then some ⟨Function.update (Function.update h.target j none) i (h.target j),h.memory⟩
    else none
  | .bury i b => (h.target i).map fun n => ⟨Function.update h.target i none,buried h.memory b n⟩

def machine : Machine (Holding I C) (Move I C) := ⟨fun h => h = init,step⟩

theorem Owned.gain (hh : Owned h) {i : I} (hi : h.target i = none) (c : C) :
    Owned ⟨Function.update h.target i (some h.memory.constructions),h.memory.construct (some c)⟩ := by
  have hfresh : ¬ Memory.dead h.memory.touches h.memory.constructions := by
    rintro (hd | hd)
    · exact (hh.bound _ hd _ rfl).false
    · exact (hh.bound _ hd _ rfl).false
  have hlt : ∀ j n, h.target j = some n → n ≠ h.memory.constructions := fun j n hj => (hh.target_lt hj).ne
  constructor
  · exact hh.unique.add (fun l hl => hlt l _ hl rfl) i
  · intro j n hj
    rcases update_some_iff.mp hj with ⟨rfl,hn⟩ | ⟨hj',hn⟩
    · obtain rfl := Option.some.inj hn
      simp [Memory.construct]
    · simpa [Memory.construct,hlt j n hn] using hh.content j n hn
  · intro j n hj
    rcases update_some_iff.mp hj with ⟨rfl,hn⟩ | ⟨hj',hn⟩
    · obtain rfl := Option.some.inj hn
      simpa [Memory.construct,Memory.dead] using hfresh
    · simpa [Memory.construct,Memory.dead] using hh.living j n hn
  · intro j n hj
    rcases update_some_iff.mp hj with ⟨rfl,hn⟩ | ⟨hj',hn⟩
    · obtain rfl := Option.some.inj hn
      simp [Memory.construct]
    · simpa [Memory.construct] using Or.inl (hh.built j n hn)
  · intro e he n hn
    rcases List.mem_append.mp he with he | he
    · exact Nat.lt_succ_of_lt (hh.bound e he n hn)
    · obtain rfl := List.mem_singleton.mp he
      obtain rfl := Option.some.inj hn
      exact Nat.lt_succ_self _
  · exact Chronicle.snoc hh.law trivial

theorem Owned.pass (hh : Owned h) (j i : I) :
    Owned ⟨Function.update (Function.update h.target j none) i (h.target j),h.memory⟩ := by
  constructor
  · exact hh.unique.pass i j
  · intro l n hl
    obtain ⟨l',hn⟩ := of_pass hl
    exact hh.content l' n hn
  · intro l n hl
    obtain ⟨l',hn⟩ := of_pass hl
    exact hh.living l' n hn
  · intro l n hl
    obtain ⟨l',hn⟩ := of_pass hl
    exact hh.built l' n hn
  · exact hh.bound
  · exact hh.law

theorem buried_contents (m : Memory C) (b : Burial) {n p : ℕ} (hp : p ≠ n) :
    (buried m b n).contents p = m.contents p := by
  cases hb : b.moved <;> simp [buried,hb,hp]

theorem Owned.bury (hh : Owned h) {i : I} {n : ℕ} (hi : h.target i = some n) (b : Burial) :
    Owned ⟨Function.update h.target i none,buried h.memory b n⟩ := by
  have hold : ∀ j p, Function.update h.target i none j = some p → h.target j = some p ∧ p ≠ n := by
    intro j p hj
    obtain ⟨hji,hp⟩ := of_update_none hj
    exact ⟨hp,fun hpn => hji (hh.unique j i p hp (hpn ▸ hi))⟩
  constructor
  · exact hh.unique.remove i
  · intro j p hj
    obtain ⟨hp,hne⟩ := hold j p hj
    simpa only [buried_contents h.memory b hne] using hh.content j p hp
  · intro j p hj
    obtain ⟨hp,hne⟩ := hold j p hj
    have hother : ∀ e ∈ b.touches n, e.object ≠ some p := by
      intro e he hobject
      rw [Burial.object_of_mem he] at hobject
      exact hne (Option.some.inj hobject).symm
    have hliving := hh.living j p hp
    rw [Memory.dead,not_or] at hliving ⊢
    simp only [buried,List.mem_append,not_or]
    exact ⟨⟨hliving.1,fun hmem => hother _ hmem rfl⟩,⟨hliving.2,fun hmem => hother _ hmem rfl⟩⟩
  · intro j p hj
    exact List.mem_append_left _ (hh.built j p (hold j p hj).1)
  · intro e he p hp
    rcases List.mem_append.mp he with he | he
    · exact hh.bound e he p hp
    · rw [Burial.object_of_mem he] at hp
      obtain rfl := Option.some.inj hp
      exact hh.target_lt hi
  · exact Burial.lawful_append hh.law (hh.living i n hi) b

theorem owned_step (h : Holding I C) (mv : Move I C) (k : Holding I C) (hh : Owned h)
    (hstep : machine.step h mv = some k) : Owned k := by
  cases mv with
  | gain i c =>
    obtain ⟨hi,hk⟩ := Option.ite_none_right_eq_some.mp hstep
    obtain rfl := Option.some.inj hk
    exact hh.gain hi c
  | pass j i =>
    obtain ⟨hi,hk⟩ := Option.ite_none_right_eq_some.mp hstep
    obtain rfl := Option.some.inj hk
    exact hh.pass j i
  | bury i b =>
    obtain ⟨n,hn,rfl⟩ := Option.map_eq_some_iff.mp hstep
    exact hh.bury hn b

theorem owned_exec {mvs : List (Move I C)} (hh : Owned h) (hrun : Machine.Exec machine h mvs k) : Owned k :=
  hrun.invariant owned_step hh

/-- What a move does to the contents that the owners hold. -/
def act (f : I → Option C) : Move I C → I → Option C
  | .gain i c => Function.update f i (some c)
  | .pass j i => Function.update (Function.update f j none) i (f j)
  | .bury i _ => Function.update f i none

/-- Ownership is an account of contents: an owner's content is its own, whatever the others do. -/
theorem held_step {mv : Move I C} (hh : Owned h) (hstep : machine.step h mv = some k) :
    held k = act (held h) mv := by
  cases mv with
  | gain i c =>
    obtain ⟨hi,hk⟩ := Option.ite_none_right_eq_some.mp hstep
    obtain rfl := Option.some.inj hk
    funext j
    by_cases hji : j = i
    · subst hji
      simp [held,act,Memory.construct]
    · cases hj : h.target j with
      | none => simp [held,act,hji,hj]
      | some n => simp [held,act,hji,hj,Memory.construct,(hh.target_lt hj).ne]
  | pass j i =>
    obtain ⟨hi,hk⟩ := Option.ite_none_right_eq_some.mp hstep
    obtain rfl := Option.some.inj hk
    funext l
    by_cases hli : l = i
    · subst hli
      simp [held,act]
    · by_cases hlj : l = j
      · subst hlj
        simp [held,act,hli]
      · simp [held,act,hli,hlj]
  | bury i b =>
    obtain ⟨n,hn,rfl⟩ := Option.map_eq_some_iff.mp hstep
    funext j
    by_cases hji : j = i
    · subst hji
      simp [held,act]
    · cases hj : h.target j with
      | none => simp [held,act,hji,hj]
      | some p =>
        have hpn : p ≠ n := fun hpn => hji (hh.unique j i p hj (hpn ▸ hn))
        simp [held,act,hji,hj,buried_contents h.memory b hpn]

theorem held_exec {mvs : List (Move I C)} (hh : Owned h) (hrun : Machine.Exec machine h mvs k) :
    held k = mvs.foldl act (held h) := by
  induction hrun with
  | refl h => rfl
  | succ hstep _ ih => rw [ih (owned_step _ _ _ hh hstep),held_step hh hstep,List.foldl_cons]

theorem covered_step (h : Holding I C) (mv : Move I C) (k : Holding I C) (hh : Covered h) (hclean : mv.clean = true)
    (hstep : machine.step h mv = some k) : Covered k := by
  intro n hbuilt hliving
  cases mv with
  | gain i c =>
    obtain ⟨hi,hk⟩ := Option.ite_none_right_eq_some.mp hstep
    obtain rfl := Option.some.inj hk
    simp only [Memory.construct,List.mem_append,List.mem_singleton,reduceCtorEq,or_false,
      Touch.constructed.injEq] at hbuilt hliving
    rcases hbuilt with hbuilt | rfl
    · obtain ⟨j,hj⟩ := hh n hbuilt hliving
      have hji : j ≠ i := fun hji => by simp [hji,hi] at hj
      exact ⟨j,update_some_iff.mpr (Or.inr ⟨hji,hj⟩)⟩
    · exact ⟨i,update_some_iff.mpr (Or.inl ⟨rfl,rfl⟩)⟩
  | pass j i =>
    obtain ⟨hi,hk⟩ := Option.ite_none_right_eq_some.mp hstep
    obtain rfl := Option.some.inj hk
    obtain ⟨l,hl⟩ := hh n hbuilt hliving
    by_cases hlj : l = j
    · subst hlj
      exact ⟨i,pass_some_iff.mpr (Or.inl ⟨rfl,hl⟩)⟩
    · have hli : l ≠ i := fun hli => by simp [hli,hi] at hl
      exact ⟨l,pass_some_iff.mpr (Or.inr ⟨hli,hlj,hl⟩)⟩
  | bury i b =>
    obtain ⟨p,hp,rfl⟩ := Option.map_eq_some_iff.mp hstep
    simp only [buried,List.mem_append,not_or] at hbuilt hliving
    have hbuilt' := hbuilt.resolve_right Burial.constructed_not_mem
    obtain ⟨j,hj⟩ := hh n hbuilt' hliving.1
    have hji : j ≠ i := by
      rintro rfl
      obtain rfl : p = n := by simpa [hj] using hp.symm
      exact hliving.2 (Burial.destroyed_mem.mpr hclean)
    exact ⟨j,update_some_iff.mpr (Or.inr ⟨hji,hj⟩)⟩

theorem covered_exec {mvs : List (Move I C)} (hh : Covered h) (hclean : ∀ mv ∈ mvs, mv.clean = true)
    (hrun : Machine.Exec machine h mvs k) : Covered k := by
  induction hrun with
  | refl h => exact hh
  | succ hstep _ ih =>
    have hfirst := hclean _ List.mem_cons_self
    exact ih (covered_step _ _ _ hh hfirst hstep) fun mv hmv => hclean mv (List.mem_cons_of_mem _ hmv)

/-- An object that is given up without a call of its destructor is an orphan. -/
theorem orphan_of_bury {i : I} {b : Burial} (hh : Owned h) (hb : b.destroyed = false)
    (hstep : machine.step h (.bury i b) = some k) : ∃ n, Orphan k n := by
  obtain ⟨n,hn,rfl⟩ := Option.map_eq_some_iff.mp hstep
  refine ⟨n,?_,?_,?_⟩
  · exact List.mem_append_left _ (hh.built i n hn)
  · intro hmem
    rcases List.mem_append.mp hmem with hmem | hmem
    · exact hh.living i n hn (Or.inl hmem)
    · simp [Burial.destroyed_mem.mp hmem] at hb
  · intro j hj
    obtain ⟨hji,hj⟩ := of_update_none hj
    exact hji (hh.unique j i n hj hn)

theorem Orphan.step {n : ℕ} {mv : Move I C} (ho : Orphan h n) (hh : Owned h)
    (hstep : machine.step h mv = some k) : Orphan k n := by
  obtain ⟨hbuilt,hliving,hnobody⟩ := ho
  cases mv with
  | gain i c =>
    obtain ⟨hi,hk⟩ := Option.ite_none_right_eq_some.mp hstep
    obtain rfl := Option.some.inj hk
    have hne : h.memory.constructions ≠ n := (hh.bound _ hbuilt n rfl).ne'
    refine ⟨List.mem_append_left _ hbuilt,by simpa [Memory.construct] using hliving,?_⟩
    intro j hj
    rcases update_some_iff.mp hj with ⟨-,hn⟩ | ⟨-,hj⟩
    · exact hne (Option.some.inj hn)
    · exact hnobody j hj
  | pass j i =>
    obtain ⟨hi,hk⟩ := Option.ite_none_right_eq_some.mp hstep
    obtain rfl := Option.some.inj hk
    refine ⟨hbuilt,hliving,?_⟩
    intro l hl
    obtain ⟨l',hn⟩ := of_pass hl
    exact hnobody l' hn
  | bury i b =>
    obtain ⟨p,hp,rfl⟩ := Option.map_eq_some_iff.mp hstep
    have hpn : p ≠ n := fun hpn => hnobody i (hpn ▸ hp)
    refine ⟨List.mem_append_left _ hbuilt,?_,?_⟩
    · intro hmem
      rcases List.mem_append.mp hmem with hmem | hmem
      · exact hliving hmem
      · exact hpn (Option.some.inj (Burial.object_of_mem hmem)).symm
    · intro j hj
      exact hnobody j (of_update_none hj).2

theorem Orphan.exec {n : ℕ} {mvs : List (Move I C)} (ho : Orphan h n) (hh : Owned h)
    (hrun : Machine.Exec machine h mvs k) : Orphan k n := by
  induction hrun with
  | refl h => exact ho
  | succ hstep _ ih => exact ih (ho.step hh hstep) (owned_step _ _ _ hh hstep)

/-- A run of moves leaves no object behind if and only if each of its moves does. -/
theorem covered_exec_iff {mvs : List (Move I C)} (hh : Owned h) (hcovered : Covered h)
    (hrun : Machine.Exec machine h mvs k) : Covered k ↔ ∀ mv ∈ mvs, mv.clean = true := by
  refine ⟨?_,fun hclean => covered_exec hcovered hclean hrun⟩
  intro hk
  induction hrun with
  | refl h => simp
  | @succ h u k mv mvs hstep hrest ih =>
    have hu := owned_step _ _ _ hh hstep
    have hfirst : mv.clean = true := by
      by_contra hmv
      cases mv with
      | gain i c => exact hmv rfl
      | pass j i => exact hmv rfl
      | bury i b =>
        obtain ⟨n,ho⟩ := orphan_of_bury hh (by simpa [Move.clean] using hmv) hstep
        exact (ho.exec hu hrest).not_covered hk
    have htail := ih hu (covered_step _ _ _ hcovered hfirst hstep) hk
    intro mv' hmv'
    rcases List.mem_cons.mp hmv' with rfl | hmv'
    · exact hfirst
    · exact htail mv' hmv'

end Holding
end BeastWebsocketEcho
