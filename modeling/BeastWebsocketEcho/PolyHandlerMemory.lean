import BeastWebsocketEcho.PolyHandlerMoves

/-!
# What becomes of the targets

The objects of the handlers are kept by the rules of ownership as long as no handler is
assigned from itself while it has a value. Where in addition no handler is moved from that
owns an object in place, and none is invoked that owns one on the heap, every object that
is constructed is destroyed.
-/

namespace BeastWebsocketEcho
namespace PolyHandler

open State

variable {A R X : Type*} {s t : State A R X} {a : Action A R X}

structure Kept (s : State A R X) : Prop where
  sound : Sound s.handlers s.count
  owned : s.holding.Owned

theorem kept_init : Kept (State.init : State A R X) where
  sound := by constructor <;> simp [State.init]
  owned := Holding.owned_init

/-- A handler without a value that is assigned from itself stays as it is. -/
theorem moveAssign_self_empty (s : State A R X) {i : ℕ} {st : Storage} (hi : s.handlers i = some ⟨st,none⟩) :
    s.moveAssign i i ⟨st,none⟩ = s := by
  have hself : Function.update s.handlers i (some ⟨st,none⟩) = s.handlers := Function.update_eq_self_iff.mpr hi.symm
  simp [moveAssign,destruct,overwrite,constructFrom,setKind,State.update,put,hi,hself]

def State.noSelfMove (s : State A R X) : Action A R X → Bool
  | .moveAssign i j => i != j || s.kindAt i == none
  | _ => true

theorem noSelfMove_cases (h : s.noSelfMove a = true) :
    a.apart = true ∨ ∃ i, a = .moveAssign i i ∧ s.kindAt i = none := by
  cases a with
  | moveAssign i j =>
    by_cases hij : i = j
    · subst hij
      exact Or.inr ⟨i,rfl,by simpa [noSelfMove] using h⟩
    · exact Or.inl (by simpa [Action.apart] using hij)
  | _ => exact Or.inl rfl

theorem kept_apart (hs : Kept s) (hapart : a.apart = true) (ha : step s a = some t) : Kept t := by
  obtain ⟨hmoves,hsound⟩ := step_moves hs.sound hs.owned hapart ha
  exact ⟨hsound,hmoves.owned hs.owned⟩

theorem kept_step (hs : Kept s) (hself : s.noSelfMove a = true) (ha : step s a = some t) : Kept t := by
  rcases noSelfMove_cases hself with hapart | ⟨i,rfl,hkind⟩
  · exact kept_apart hs hapart ha
  · obtain ⟨h,other,hi,-,rfl⟩ := moveAssign_cases ha
    obtain ⟨st,kind⟩ := h
    obtain rfl : kind = none := by simpa [kindAt,hi] using hkind
    rwa [moveAssign_self_empty s hi]

theorem kept_of_reachable (h : (machine.restrict State.noSelfMove).Reachable s) : Kept s := by
  refine h.invariant (I := Kept) ?_ ?_
  · rintro _ rfl
    exact kept_init
  · intro s a t hs ha
    obtain ⟨hself,hstep⟩ := Machine.restrict_step_iff.mp ha
    exact kept_step hs hself hstep

/-- No object is moved from, run or destroyed after it was destroyed or its buffer was released, and none is built
over while it lives, in any run in which no handler with a value is assigned from itself. -/
theorem touches_the_living (h : (machine.restrict State.noSelfMove).Reachable s) : Memory.Lawful s.memory.touches :=
  (kept_of_reachable h).owned.law

/-- A callable in place, passed on to another handler, which is then assigned from itself without a value. -/
def passedOn : List (Action Unit Unit Unit) :=
  [.construct 8,.default,.moveAssign 1 0,.invoke 1 (),.moveAssign 1 1,.returned (),.destroy 0,.destroy 1]

theorem passedOn_lawful : ∃ s, machine.replay State.init passedOn = some s ∧ Memory.Lawful s.memory.touches :=
  have hrun : (machine.restrict State.noSelfMove).replay State.init passedOn = some _ := rfl
  ⟨_,rfl,touches_the_living (Machine.Reachable.of_replay rfl hrun)⟩

def assignedFromItself : List (Action Unit Unit Unit) := [.construct 8,.moveAssign 0 0]

/-- The callable is moved out of the object that was destroyed to make room for it. -/
theorem touches_the_dead : ¬ ∀ s : State Unit Unit Unit, machine.Reachable s → Memory.Lawful s.memory.touches := by
  intro h
  have hrun : machine.replay (State.init : State Unit Unit Unit) assignedFromItself = some _ := rfl
  have hlawful := h _ (Machine.Reachable.of_replay rfl hrun)
  have hdead := hlawful [.constructed 0,.destroyed 0,.overwrote 0] (.movedFrom 0) [.constructed 1] rfl
  exact hdead (Or.inl (by decide))

/-- What a handler with a value is after an assignment from itself: its object was moved from after its
destructor, or it has a value and no object, and the next call reads through a null pointer. -/
theorem self_move_breaks (hs : Kept s) {i : ℕ} {k : Kind} (hkind : s.kindAt i = some k)
    (ha : step s (.moveAssign i i) = some t) : ¬ Memory.Lawful t.memory.touches ∨
      ∀ args u, step t (.invoke i args) = some u → ¬ Memory.Lawful u.memory.touches := by
  obtain ⟨h,-,hi,-,rfl⟩ := moveAssign_cases ha
  have hsome : h.kind = some k := by simpa [kindAt,hi] using hkind
  rcases handler_cases h (hs.sound.typed i h hi) with ⟨st,rfl⟩ | ⟨k',n,rfl⟩
  · simp at hsome
  · cases k' with
    | small =>
      refine Or.inl fun hlawful => ?_
      have htouches : (s.moveAssign i i (owning .small n)).memory.touches =
          (s.memory.touches ++ [Touch.destroyed n,.overwrote n]) ++
            .movedFrom n :: [.constructed s.memory.constructions] := by
        simp [owning,moveAssign,destruct,Kind.destroy,overwrite,constructFrom,Kind.moveConstruct,Memory.touch,
          Memory.moveFrom,Memory.construct,setKind,setStorage,State.update,put,hi,Handler.target]
      exact hlawful _ _ _ htouches (Or.inl (by simp))
    | big =>
      refine Or.inr fun args u hu hlawful => ?_
      have hhandler : (s.moveAssign i i (owning .big n)).handlers i = some ⟨.long none,some .big⟩ := by
        simp [owning,moveAssign,destruct,Kind.destroy,overwrite,constructFrom,Kind.moveConstruct,setKind,setStorage,
          State.update,put,hi]
      obtain ⟨h',hh',rfl⟩ := Option.map_eq_some_iff.mp hu
      obtain rfl : h' = ⟨.long none,some .big⟩ := by simpa [hhandler] using hh'.symm
      have htouches : ((s.moveAssign i i (owning .big n)).invoke i ⟨.long none,some .big⟩ args).memory.touches =
          (s.moveAssign i i (owning .big n)).memory.touches ++ .stray :: [] := by
        simp [invoke,Kind.invoke,Memory.touch,observe,setKind,setStorage,State.update,put]
      exact hlawful _ _ _ htouches

section Leaks

/-- The objects that were constructed and not destroyed are the targets of the handlers with a value, one for each;
and once there is no handler left, the destructor of every object was called exactly once. -/
structure Balanced (s : State A R X) : Prop where
  targets : ∀ n, (.constructed n ∈ s.memory.touches ∧ .destroyed n ∉ s.memory.touches) ↔
    ∃ i h, s.handlers i = some h ∧ h.hasValue = true ∧ h.target = some n
  target : ∀ i h, s.handlers i = some h → h.hasValue = true → ∃ n, h.target = some n
  single : ∀ i j hi hj n, s.handlers i = some hi → s.handlers j = some hj → hi.target = some n →
    hj.target = some n → i = j
  once : (∀ i, s.handlers i = none) → ∀ n, .constructed n ∈ s.memory.touches →
    s.memory.touches.count (.destroyed n) = 1

theorem hasValue_of_target {h : Handler} {n : ℕ} (ht : h.target = some n) : h.hasValue = true := by
  obtain ⟨st,kind⟩ := h
  cases kind with
  | none => simp at ht
  | some k => rfl

theorem target_some_iff {i n : ℕ} : targets s.handlers i = some n ↔ ∃ h, s.handlers i = some h ∧ h.target = some n :=
  Option.bind_eq_some_iff

theorem balanced_iff (hs : Kept s) : Balanced s ↔ s.holding.Covered := by
  constructor
  · intro hb n hbuilt hliving
    obtain ⟨i,h,hi,-,ht⟩ := (hb.targets n).mp ⟨hbuilt,hliving⟩
    exact ⟨i,target_some_iff.mpr ⟨h,hi,ht⟩⟩
  · intro hcovered
    constructor
    · intro n
      constructor
      · rintro ⟨hbuilt,hliving⟩
        obtain ⟨i,hi⟩ := hcovered n hbuilt hliving
        obtain ⟨h,hh,ht⟩ := target_some_iff.mp hi
        exact ⟨i,h,hh,hasValue_of_target ht,ht⟩
      · rintro ⟨i,h,hi,-,ht⟩
        have htarget := target_some_iff.mpr ⟨h,hi,ht⟩
        exact ⟨hs.owned.built i n htarget,fun hd => hs.owned.living i n htarget (Or.inl hd)⟩
    · intro i h hi hvalue
      exact Option.isSome_iff_exists.mp (hs.sound.typed i h hi hvalue)
    · intro i j hi hj n hhi hhj hti htj
      exact hs.owned.unique i j n (target_some_iff.mpr ⟨hi,hhi,hti⟩) (target_some_iff.mpr ⟨hj,hhj,htj⟩)
    · intro hnone n hbuilt
      have hd : .destroyed n ∈ s.memory.touches := by
        by_contra hliving
        obtain ⟨i,hi⟩ := hcovered n hbuilt hliving
        obtain ⟨h,hh,-⟩ := target_some_iff.mp hi
        simp [hnone i] at hh
      have hle : s.memory.touches.count (.destroyed n) ≤ 1 := Memory.count_destroyed_le hs.owned.law n
      have hpos := List.count_pos_iff.mpr hd
      omega

theorem balanced_init : Balanced (State.init : State A R X) :=
  (balanced_iff kept_init).mpr Holding.covered_init

/-- An action between different handlers keeps the balance if and only if it leaves no object behind. -/
theorem balanced_step_iff (hs : Kept s) (hb : Balanced s) (hapart : a.apart = true) (ha : step s a = some t) :
    Balanced t ↔ s.tidy a = true := by
  obtain ⟨hmoves,-⟩ := step_moves hs.sound hs.owned hapart ha
  rw [balanced_iff (kept_apart hs hapart ha),hmoves.covered_iff hs.owned ((balanced_iff hs).mp hb)]

/-- Between different handlers, and without leaving an object behind. -/
def State.keepsBalance (s : State A R X) (a : Action A R X) : Bool := a.apart && s.tidy a

theorem keepsBalance_iff : s.keepsBalance a = true ↔ a.apart = true ∧ s.tidy a = true := by simp [keepsBalance]

theorem kept_and_balanced (h : (machine.restrict State.keepsBalance).Reachable s) : Kept s ∧ Balanced s := by
  refine h.invariant (I := fun s => Kept s ∧ Balanced s) ?_ ?_
  · rintro _ rfl
    exact ⟨kept_init,balanced_init⟩
  · rintro s a t ⟨hs,hb⟩ ha
    obtain ⟨hok,hstep⟩ := Machine.restrict_step_iff.mp ha
    obtain ⟨hapart,htidy⟩ := keepsBalance_iff.mp hok
    exact ⟨kept_apart hs hapart hstep,(balanced_step_iff hs hb hapart hstep).mpr htidy⟩

/-- Every target is destroyed, in every run in which no handler is moved from that owns an object in place and
none is invoked that owns one on the heap; and the first other step between different handlers leaves an object
behind. -/
theorem destroys_every_target (h : (machine.restrict State.keepsBalance).Reachable s) :
    Balanced s ∧ ∀ a t, a.apart = true → step s a = some t → (Balanced t ↔ s.tidy a = true) := by
  obtain ⟨hs,hb⟩ := kept_and_balanced h
  exact ⟨hb,fun a t hapart ha => balanced_step_iff hs hb hapart ha⟩

def tidyRun : List (Action Unit Unit Unit) :=
  [.construct 64,.moveConstruct 0,.construct 8,.invoke 2 (),.returned (),.destroy 0,.destroy 1,.destroy 2]

theorem tidyRun_balanced : ∃ s, machine.replay State.init tidyRun = some s ∧ Balanced s :=
  have hrun : (machine.restrict State.keepsBalance).replay State.init tidyRun = some _ := rfl
  ⟨_,rfl,(destroys_every_target (Machine.Reachable.of_replay rfl hrun)).1⟩

def passedOnInPlace : List (Action Unit Unit Unit) :=
  [.construct 8,.moveConstruct 0,.destroy 0,.destroy 1]

theorem leaves_an_object : ¬ ∀ s : State Unit Unit Unit,
    (machine.restrict fun _ a => a.apart).Reachable s → Balanced s := by
  intro h
  have hrun : (machine.restrict fun _ a => a.apart).replay (State.init : State Unit Unit Unit) passedOnInPlace =
      some _ := rfl
  have honce := (h _ (Machine.Reachable.of_replay rfl hrun)).once ?_ 0 (by decide)
  · exact absurd honce (by decide)
  · intro i
    match i with
    | 0 => rfl
    | 1 => rfl
    | _ + 2 => rfl

end Leaks

end PolyHandler
end BeastWebsocketEcho
