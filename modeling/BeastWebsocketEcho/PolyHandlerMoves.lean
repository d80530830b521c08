import BeastWebsocketEcho.PolyHandler

/-!
# The handlers as owners

Every operation of the handlers is a run of moves of ownership, in which the owners are
the handlers with a value. A run of moves is followed in both of its readings: what
becomes of the objects, and what becomes of the contents that the handlers hold.
-/

namespace BeastWebsocketEcho
namespace PolyHandler

open Holding (held)

variable {A R X : Type*}

def targets (handlers : ℕ → Option Handler) (i : ℕ) : Option ℕ := (handlers i).bind Handler.target

@[simp] theorem targets_update (handlers : ℕ → Option Handler) (i : ℕ) (h : Option Handler) :
    targets (Function.update handlers i h) = Function.update (targets handlers) i (h.bind Handler.target) := by
  funext l
  by_cases hl : l = i
  · subst hl
    simp [targets]
  · simp [targets,hl]

theorem targets_of_handler {handlers : ℕ → Option Handler} {i : ℕ} {h : Handler} (hi : handlers i = some h) :
    targets handlers i = h.target := by simp [targets,hi]

namespace State

def holding (s : State A R X) : Holding ℕ ℕ := ⟨targets s.handlers,s.memory⟩

@[simp] theorem holding_target (s : State A R X) : s.holding.target = targets s.handlers := rfl
@[simp] theorem holding_memory (s : State A R X) : s.holding.memory = s.memory := rfl
@[simp] theorem observe_holding (s : State A R X) (e : Observation A R X) : (s.observe e).holding = s.holding := rfl

end State

open State

theorem holding_eq {s : State A R X} {handlers : ℕ → Option Handler} {m : Memory ℕ} (hhandlers : s.handlers = handlers)
    (hmemory : s.memory = m) : s.holding = ⟨targets handlers,m⟩ := by
  subst hhandlers hmemory
  rfl

/-- Where nothing is held, there is nothing to give up. -/
theorem held_update_none {s : State A R X} {i : ℕ} (hnone : targets s.handlers i = none) :
    Function.update (held s.holding) i none = held s.holding := by
  rw [Function.update_eq_self_iff]
  simp [held,hnone]

/-- Every handler with a value has a target; a handler that is still to be constructed is not there. -/
structure Sound (handlers : ℕ → Option Handler) (count : ℕ) : Prop where
  typed : ∀ i h, handlers i = some h → h.kind.isSome → h.target.isSome
  fresh : ∀ i, count ≤ i → handlers i = none

namespace Sound

variable {handlers : ℕ → Option Handler} {count i : ℕ} {h : Handler}

theorem lt (hs : Sound handlers count) (hi : handlers i = some h) : i < count := by
  by_contra hle
  simp [hs.fresh i (Nat.le_of_not_lt hle)] at hi

theorem update (hs : Sound handlers count) (hi : i < count) {k : Option Handler}
    (hk : ∀ h, k = some h → h.kind.isSome → h.target.isSome) : Sound (Function.update handlers i k) count := by
  constructor
  · intro l h hl
    by_cases hli : l = i
    · subst hli
      exact hk h (by simpa using hl)
    · exact hs.typed l h (by simpa [hli] using hl)
  · intro l hl
    have hli : l ≠ i := by omega
    simpa [hli] using hs.fresh l hl

theorem grow (hs : Sound handlers count) : Sound handlers (count + 1) :=
  ⟨hs.typed,fun i hi => hs.fresh i (Nat.le_of_succ_le hi)⟩

end Sound

def owning : Kind → ℕ → Handler
  | .small, n => ⟨.short n,some .small⟩
  | .big, n => ⟨.long (some n),some .big⟩

@[simp] theorem target_empty (st : Storage) : (⟨st,none⟩ : Handler).target = none := rfl
@[simp] theorem target_short (n : ℕ) : (⟨.short n,some .small⟩ : Handler).target = some n := rfl
@[simp] theorem target_long (p : Option ℕ) : (⟨.long p,some .big⟩ : Handler).target = p := rfl
@[simp] theorem target_owning (k : Kind) (n : ℕ) : (owning k n).target = some n := by cases k <;> rfl
@[simp] theorem kind_owning (k : Kind) (n : ℕ) : (owning k n).kind = some k := by cases k <;> rfl

theorem handler_cases (h : Handler) (ht : h.kind.isSome → h.target.isSome) :
    (∃ st, h = ⟨st,none⟩) ∨ ∃ k n, h = owning k n := by
  obtain ⟨st,kind⟩ := h
  cases kind with
  | none => exact Or.inl ⟨st,rfl⟩
  | some k =>
    have hsome := ht rfl
    cases k with
    | small =>
      cases st with
      | short n => exact Or.inr ⟨.small,n,rfl⟩
      | raw => simp [Handler.target] at hsome
      | long p => simp [Handler.target] at hsome
    | big =>
      cases st with
      | long p =>
        cases p with
        | some n => exact Or.inr ⟨.big,n,rfl⟩
        | none => simp [Handler.target] at hsome
      | raw => simp [Handler.target] at hsome
      | short n => simp [Handler.target] at hsome

/-- How the vtables give up an object: in place of another one, in a call, and when it is moved from. -/
def Kind.destroyed : Kind → Burial
  | .small => ⟨false,true,false,false,by simp⟩
  | .big => ⟨false,true,true,false,by simp⟩

def Kind.replaced : Kind → Burial
  | .small => ⟨false,true,false,true,by simp⟩
  | .big => ⟨false,true,true,false,by simp⟩

def Kind.invoked : Kind → Burial
  | .small => ⟨true,true,false,false,by simp⟩
  | .big => ⟨true,false,true,false,by simp⟩

def leftBehind : Burial := ⟨true,false,false,false,by simp⟩

/-- `t` follows `s` by moves of ownership, after which the handlers hold the contents `g`; the
moves leave no object behind if and only if `clean`. -/
def Moves (s t : State A R X) (g : ℕ → Option ℕ) (clean : Prop) : Prop :=
  ∃ mvs, Machine.Exec Holding.machine s.holding mvs t.holding ∧ mvs.foldl Holding.act (held s.holding) = g ∧
    ((∀ mv ∈ mvs, mv.clean = true) ↔ clean)

namespace Moves

variable {s t u : State A R X} {g g' : ℕ → Option ℕ} {clean clean' : Prop}

theorem none (h : t.holding = s.holding) : Moves s t (held s.holding) True :=
  ⟨[],h ▸ Machine.Exec.refl _,rfl,by simp⟩

theorem one {mv : Move ℕ ℕ} (h : Holding.machine.step s.holding mv = some t.holding) :
    Moves s t (Holding.act (held s.holding) mv) (mv.clean = true) :=
  ⟨[mv],Machine.Exec.single h,rfl,by simp⟩

theorem bury {b : Burial} {i n : ℕ} {k : Option Handler} (hi : targets s.handlers i = some n)
    (hk : k.bind Handler.target = Option.none) (hhandlers : t.handlers = Function.update s.handlers i k)
    (hmemory : t.memory = Holding.buried s.memory b n) :
    Moves s t (Function.update (held s.holding) i Option.none) (b.destroyed = true) := by
  have hstep : Holding.machine.step s.holding (.bury i b) = some t.holding := by
    rw [holding_eq hhandlers hmemory]
    simp [Holding.machine,Holding.step,hi,hk]
  exact Moves.one hstep

theorem trans (hs : s.holding.Owned) (h : Moves s t g clean) (h' : Moves t u g' clean') :
    Moves s u g' (clean ∧ clean') := by
  obtain ⟨mvs,hrun,hg,hclean⟩ := h
  obtain ⟨mvs',hrun',hg',hclean'⟩ := h'
  refine ⟨mvs ++ mvs',hrun.trans hrun',?_,?_⟩
  · rw [List.foldl_append,← Holding.held_exec hs hrun]
    exact hg'
  · rw [← hclean,← hclean',List.forall_mem_append]

theorem owned (h : Moves s t g clean) (hs : s.holding.Owned) : t.holding.Owned := by
  obtain ⟨mvs,hrun,-,-⟩ := h
  exact Holding.owned_exec hs hrun

theorem held_eq (h : Moves s t g clean) (hs : s.holding.Owned) : held t.holding = g := by
  obtain ⟨mvs,hrun,hg,-⟩ := h
  rw [Holding.held_exec hs hrun,hg]

theorem covered_iff (h : Moves s t g clean) (hs : s.holding.Owned) (hcovered : s.holding.Covered) :
    t.holding.Covered ↔ clean := by
  obtain ⟨mvs,hrun,-,hclean⟩ := h
  rw [Holding.covered_exec_iff hs hcovered hrun,hclean]

end Moves

section Operations

variable {s : State A R X} {i j : ℕ} {h : Handler}

theorem construct_moves (hs : Sound s.handlers s.count) (size : ℕ) :
    Moves s (s.construct size) (Function.update (held s.holding) s.count (some s.callables)) True := by
  have hnone : targets s.handlers s.count = none := by simp [targets,hs.fresh s.count le_rfl]
  have hstep : Holding.machine.step s.holding (.gain s.count s.callables) = some (s.construct size).holding := by
    cases hk : Kind.ofSize size with
    | small => simp [Holding.machine,Holding.step,hnone,holding,construct,hk,Kind.construct,allocate,put]
    | big => simp [Holding.machine,Holding.step,hnone,holding,construct,hk,Kind.construct,allocate,put]
  simpa [Holding.act,Move.clean] using Moves.one hstep

/-- What the destructor leaves in a handler's place does not matter to what is put there. -/
theorem destruct_handlers (s : State A R X) (i : ℕ) (h : Handler) (k : Option Handler) :
    Function.update (s.destruct i h).handlers i k = Function.update s.handlers i k := by
  unfold destruct
  split
  · simp [setStorage,State.update,put]
  · rfl

theorem destroy_moves (hs : Sound s.handlers s.count) (hi : s.handlers i = some h) :
    Moves s ((s.destruct i h).put i none) (Function.update (held s.holding) i none) True := by
  have hhandlers : ((s.destruct i h).put i none).handlers = Function.update s.handlers i none :=
    destruct_handlers s i h none
  rcases handler_cases h (hs.typed i h hi) with ⟨st,rfl⟩ | ⟨k,n,rfl⟩
  · have hnone : targets s.handlers i = none := by simp [targets_of_handler hi]
    have hsame : ((s.destruct i ⟨st,none⟩).put i none).holding = s.holding := by
      rw [holding_eq hhandlers rfl,targets_update,Option.bind_none,← hnone,Function.update_eq_self]
      rfl
    rw [held_update_none hnone]
    exact Moves.none hsame
  · have htarget : targets s.handlers i = some n := by simp [targets_of_handler hi]
    have hmemory : ((s.destruct i (owning k n)).put i none).memory = Holding.buried s.memory k.destroyed n := by
      cases k <;> simp [owning,Holding.buried,destruct,Kind.destroy,Kind.destroyed,Burial.touches,Burial.touchIf,
        Memory.touch,setStorage,State.update,put]
    have hclean : k.destroyed.destroyed = true := by cases k <;> rfl
    simpa [hclean] using Moves.bury htarget rfl hhandlers hmemory

@[simp] theorem destruct_count (s : State A R X) (i : ℕ) (h : Handler) : (s.destruct i h).count = s.count := by
  unfold destruct
  split <;> rfl

@[simp] theorem overwrite_count (s : State A R X) (i : ℕ) : (s.overwrite i).count = s.count := by
  unfold overwrite
  split <;> rfl

@[simp] theorem constructFrom_count (s : State A R X) (i j : ℕ) : (s.constructFrom i j).count = s.count := by
  unfold constructFrom
  simp only
  split <;> rfl

/-- The handler in whose place another one is constructed: its object is gone, and so is its kind. -/
def State.vacated (s : State A R X) (i : ℕ) (h : Handler) : State A R X :=
  ((s.destruct i h).overwrite i).setKind i none

theorem vacated_handlers (s : State A R X) (hi : s.handlers i = some h) :
    ∃ st, (s.vacated i h).handlers = Function.update s.handlers i (some ⟨st,none⟩) := by
  obtain ⟨st,kind⟩ := h
  cases kind with
  | none =>
    exact ⟨st,by simp [vacated,destruct,overwrite,setKind,State.update,put,hi]⟩
  | some k =>
    refine ⟨(k.destroy st s.memory).1,?_⟩
    simp only [vacated,destruct,overwrite]
    split <;> simp [setKind,setStorage,State.update,put,hi]

theorem vacated_moves (hs : Sound s.handlers s.count) (hi : s.handlers i = some h) :
    Moves s (s.vacated i h) (Function.update (held s.holding) i none) True := by
  obtain ⟨st',hhandlers⟩ := vacated_handlers s hi
  rcases handler_cases h (hs.typed i h hi) with ⟨st,rfl⟩ | ⟨k,n,rfl⟩
  · have hnone : targets s.handlers i = none := by simp [targets_of_handler hi]
    have hmemory : (s.vacated i ⟨st,none⟩).memory = s.memory := by
      simp [vacated,destruct,overwrite,hi,setKind,State.update,put]
    have hsame : (s.vacated i ⟨st,none⟩).holding = s.holding := by
      rw [holding_eq hhandlers hmemory,targets_update,Option.bind_some,target_empty,← hnone,Function.update_eq_self]
      rfl
    rw [held_update_none hnone]
    exact Moves.none hsame
  · have htarget : targets s.handlers i = some n := by simp [targets_of_handler hi]
    have hmemory : (s.vacated i (owning k n)).memory = Holding.buried s.memory k.replaced n := by
      cases k <;> simp [owning,Holding.buried,vacated,overwrite,destruct,Kind.destroy,Kind.replaced,Burial.touches,
        Burial.touchIf,Memory.touch,setKind,setStorage,State.update,put,hi]
    have hclean : k.replaced.destroyed = true := by cases k <;> rfl
    simpa [hclean] using Moves.bury htarget rfl hhandlers hmemory

theorem vacated_sound (hs : Sound s.handlers s.count) (hi : s.handlers i = some h) :
    Sound (s.vacated i h).handlers (s.vacated i h).count := by
  obtain ⟨st,hhandlers⟩ := vacated_handlers s hi
  have hcount : (s.vacated i h).count = s.count := by simp [vacated,setKind,State.update,put]
  rw [hhandlers,hcount]
  exact hs.update (hs.lt hi) (by simp)

/-- The move constructor writes the kind of its place before it reads it. -/
theorem constructFrom_setKind (s : State A R X) (hij : i ≠ j) :
    (s.setKind i none).constructFrom i j = s.constructFrom i j := by
  have hj : (s.setKind i none).handlers j = s.handlers j := by simp [setKind,State.update,put,hij.symm]
  have hkinds (k : Option Kind) : ((s.setKind i none).setKind j none).setKind i k = (s.setKind j none).setKind i k := by
    apply State.ext
    · funext l
      by_cases hli : l = i
      · subst hli
        cases hl : s.handlers l <;> simp [setKind,State.update,put,hij,hl]
      · simp [setKind,State.update,put,hli,hij.symm,Function.update_apply]
    all_goals rfl
  simp only [constructFrom,hj,hkinds]

theorem moveAssign_eq (s : State A R X) (hij : i ≠ j) :
    s.moveAssign i j h = (s.vacated i h).constructFrom i j := (constructFrom_setKind _ hij).symm

theorem constructFrom_empty (s : State A R X) (hij : i ≠ j) {st st' : Storage} (hi : s.handlers i = some ⟨st,none⟩)
    (hj : s.handlers j = some ⟨st',none⟩) : s.constructFrom i j = s := by
  apply State.ext
  · funext l
    by_cases hli : l = i
    · subst hli
      simp [constructFrom,setKind,State.update,put,hij,hi,hj]
    · by_cases hlj : l = j
      · subst hlj
        simp [constructFrom,setKind,State.update,put,hli,hj]
      · simp [constructFrom,setKind,State.update,put,hli,hlj,hj]
  all_goals simp [constructFrom,setKind,State.update,put,hij,hi,hj]

theorem constructFrom_handlers (s : State A R X) (hij : i ≠ j) {st : Storage} {k : Kind} {other : Handler}
    (hi : s.handlers i = some ⟨st,none⟩) (hj : s.handlers j = some other) (hk : other.kind = some k) :
    (s.constructFrom i j).handlers = Function.update (Function.update s.handlers j
        (some ⟨(k.moveConstruct other.storage s.memory).2.1,none⟩)) i
        (some ⟨(k.moveConstruct other.storage s.memory).1,some k⟩) ∧
      (s.constructFrom i j).memory = (k.moveConstruct other.storage s.memory).2.2 := by
  constructor
  · funext l
    by_cases hli : l = i
    · subst hli
      simp [constructFrom,setKind,setStorage,State.update,put,hij,hij.symm,hi,hj,hk]
    · by_cases hlj : l = j
      · subst hlj
        simp [constructFrom,setKind,setStorage,State.update,put,hli,hj,hk]
      · simp [constructFrom,setKind,setStorage,State.update,put,hli,hlj,hij.symm,hj,hk]
  · simp [constructFrom,setKind,setStorage,State.update,put,hij.symm,hj,hk]

/-- The object of a handler in place stays where it is, and a new one is built from what it held. -/
theorem constructFrom_small (howned : s.holding.Owned) (hij : i ≠ j) {st : Storage} {n : ℕ}
    (hi : s.handlers i = some ⟨st,none⟩) (hj : s.handlers j = some ⟨.short n,some .small⟩) :
    Moves s (s.constructFrom i j) (Function.update (Function.update (held s.holding) j none) i (held s.holding j))
      False := by
  have hnone : targets s.handlers i = none := by simp [targets_of_handler hi]
  have htarget : targets s.handlers j = some n := by simp [targets_of_handler hj]
  obtain ⟨hhandlers,hmemory⟩ := constructFrom_handlers s hij hi hj rfl
  obtain ⟨c,hc⟩ := Option.isSome_iff_exists.mp (howned.content j n htarget)
  have hcontent : s.memory.contents n = some c := hc
  have hleft : Holding.machine.step s.holding (.bury j leftBehind) =
      some ⟨Function.update (targets s.handlers) j none,s.memory.moveFrom n⟩ := by
    simp [Holding.machine,Holding.step,htarget,Holding.buried,leftBehind,Burial.touches,Burial.touchIf,
      Memory.moveFrom]
  have hbuilt : Holding.machine.step ⟨Function.update (targets s.handlers) j none,s.memory.moveFrom n⟩ (.gain i c) =
      some (s.constructFrom i j).holding := by
    rw [holding_eq hhandlers hmemory]
    simp [Holding.machine,Holding.step,hij,hnone,Kind.moveConstruct,hcontent,Memory.moveFrom]
  refine ⟨[.bury j leftBehind,.gain i c],Machine.Exec.succ hleft (Machine.Exec.single hbuilt),?_,?_⟩
  · have hheld : held s.holding j = some c := by simpa [held,htarget] using hcontent
    simp [Holding.act,hheld]
  · simp [Move.clean,leftBehind]

theorem constructFrom_big (hij : i ≠ j) {st : Storage} {n : ℕ} (hi : s.handlers i = some ⟨st,none⟩)
    (hj : s.handlers j = some ⟨.long (some n),some .big⟩) :
    Moves s (s.constructFrom i j) (Function.update (Function.update (held s.holding) j none) i (held s.holding j))
      True := by
  have hnone : targets s.handlers i = none := by simp [targets_of_handler hi]
  have htarget : targets s.handlers j = some n := by simp [targets_of_handler hj]
  obtain ⟨hhandlers,hmemory⟩ := constructFrom_handlers s hij hi hj rfl
  have hstep : Holding.machine.step s.holding (.pass j i) = some (s.constructFrom i j).holding := by
    rw [holding_eq hhandlers hmemory]
    simp [Holding.machine,Holding.step,hnone,htarget,Kind.moveConstruct]
  simpa [Holding.act,Move.clean] using Moves.one hstep

theorem constructFrom_moves (hs : Sound s.handlers s.count) (howned : s.holding.Owned) (hij : i ≠ j) {st : Storage}
    {other : Handler} (hi : s.handlers i = some ⟨st,none⟩) (hj : s.handlers j = some other) :
    Moves s (s.constructFrom i j) (Function.update (Function.update (held s.holding) j none) i (held s.holding j))
      (other.kind ≠ some .small) := by
  rcases handler_cases other (hs.typed j other hj) with ⟨st',rfl⟩ | ⟨k,n,rfl⟩
  · have hsource : targets s.handlers j = none := by simp [targets_of_handler hj]
    have hplace : targets s.handlers i = none := by simp [targets_of_handler hi]
    have hempty : held s.holding j = none := by simp [held,hsource]
    rw [constructFrom_empty s hij hi hj,held_update_none hsource,hempty,held_update_none hplace]
    simpa using Moves.none (s := s) rfl
  · cases k with
    | small => simpa [owning] using constructFrom_small howned hij hi hj
    | big => simpa [owning] using constructFrom_big hij hi hj

theorem constructFrom_sound (hs : Sound s.handlers s.count) (hij : i ≠ j) {st : Storage} {other : Handler}
    (hi : s.handlers i = some ⟨st,none⟩) (hj : s.handlers j = some other) :
    Sound (s.constructFrom i j).handlers (s.constructFrom i j).count := by
  rw [constructFrom_count]
  rcases handler_cases other (hs.typed j other hj) with ⟨st',rfl⟩ | ⟨k,n,rfl⟩
  · rwa [constructFrom_empty s hij hi hj]
  · rw [(constructFrom_handlers s hij hi hj (kind_owning k n)).1]
    have hsource := hs.update (hs.lt hj) (k := some ⟨(k.moveConstruct (owning k n).storage s.memory).2.1,none⟩)
        (by simp)
    refine hsource.update (hs.lt hi) ?_
    cases k <;> simp [owning,Kind.moveConstruct]

/-- The object of a handler that is invoked; the heap buffer is released without a destructor call. -/
theorem invoke_moves (hs : Sound s.handlers s.count) (hi : s.handlers i = some h) (args : A) :
    Moves s (s.invoke i h args) (Function.update (held s.holding) i none) (h.kind ≠ some .big) := by
  rcases handler_cases h (hs.typed i h hi) with ⟨st,rfl⟩ | ⟨k,n,rfl⟩
  · have hnone : targets s.handlers i = none := by simp [targets_of_handler hi]
    have hself : Function.update s.handlers i (some ⟨st,none⟩) = s.handlers := Function.update_eq_self_iff.mpr hi.symm
    have hsame : (s.invoke i ⟨st,none⟩ args).holding = s.holding := by
      simp [invoke,observe,holding,setKind,State.update,put,hi,hself]
    rw [held_update_none hnone]
    simpa using Moves.none hsame
  · have htarget : targets s.handlers i = some n := by simp [targets_of_handler hi]
    have hhandlers : (s.invoke i (owning k n) args).handlers =
        Function.update s.handlers i (some ⟨(k.invoke (owning k n).storage s.memory).2.1,none⟩) := by
      simp [invoke,observe,setKind,setStorage,State.update,put,hi]
    have hmemory : (s.invoke i (owning k n) args).memory = Holding.buried s.memory k.invoked n := by
      cases k <;> simp [owning,Holding.buried,invoke,Kind.invoke,Kind.destroy,Kind.invoked,Burial.touches,
        Burial.touchIf,Memory.touch,Memory.moveFrom,observe,setKind,setStorage,State.update,put]
    have hclean : k.invoked.destroyed = true ↔ (owning k n).kind ≠ some .big := by
      cases k <;> simp [Kind.invoked]
    simpa [hclean] using Moves.bury htarget rfl hhandlers hmemory

theorem invoke_sound (hs : Sound s.handlers s.count) (hi : s.handlers i = some h) (args : A) :
    Sound (s.invoke i h args).handlers (s.invoke i h args).count := by
  obtain ⟨st,kind⟩ := h
  cases kind with
  | none =>
    have hself : Function.update s.handlers i (some ⟨st,none⟩) = s.handlers :=
      Function.update_eq_self_iff.mpr hi.symm
    simpa [invoke,observe,setKind,State.update,put,hi,hself] using hs
  | some k =>
    have hempty := hs.update (hs.lt hi) (k := some ⟨(k.invoke st s.memory).2.1,none⟩) (by simp)
    simpa [invoke,observe,setKind,setStorage,State.update,put,hi] using hempty

end Operations

def Action.apart : Action A R X → Bool
  | .moveAssign i j => i != j
  | _ => true

def State.kindAt (s : State A R X) (i : ℕ) : Option Kind := (s.handlers i).bind Handler.kind

/-- The action leaves no object behind: no handler is moved from that owns an object in place, and none is
invoked that owns one on the heap. -/
def State.tidy (s : State A R X) : Action A R X → Bool
  | .moveConstruct j => s.kindAt j != some .small
  | .moveAssign _ j => s.kindAt j != some .small
  | .invoke i _ => s.kindAt i != some .big
  | _ => true

/-- What an action does to the contents of the handlers. -/
def State.contentsAfter (s : State A R X) : Action A R X → ℕ → Option ℕ
  | .construct _ => Function.update (held s.holding) s.count (some s.callables)
  | .moveConstruct j => Function.update (Function.update (held s.holding) j none) s.count (held s.holding j)
  | .moveAssign i j => Function.update (Function.update (held s.holding) j none) i (held s.holding j)
  | .invoke i _ => Function.update (held s.holding) i none
  | .destroy i => Function.update (held s.holding) i none
  | _ => held s.holding

variable {s t : State A R X} {a : Action A R X}

theorem allocate_holding (hs : Sound s.handlers s.count) : (s.allocate Handler.empty).holding = s.holding := by
  have hnone : targets s.handlers s.count = none := by simp [targets,hs.fresh s.count le_rfl]
  have htargets : Function.update (targets s.handlers) s.count none = targets s.handlers :=
    Function.update_eq_self_iff.mpr hnone.symm
  simp [holding,allocate,put,Handler.empty,htargets]

theorem allocate_sound (hs : Sound s.handlers s.count) (h : Handler) (hh : h.kind.isSome → h.target.isSome) :
    Sound (s.allocate h).handlers (s.allocate h).count :=
  hs.grow.update (Nat.lt_succ_self _) (by simpa using hh)

theorem construct_sound (hs : Sound s.handlers s.count) (size : ℕ) :
    Sound (s.construct size).handlers (s.construct size).count := by
  cases hk : Kind.ofSize size with
  | small =>
    have hnew := allocate_sound hs ⟨.short s.memory.constructions,some .small⟩ (by simp)
    simpa [construct,hk,Kind.construct,allocate,put] using hnew
  | big =>
    have hnew := allocate_sound hs ⟨.long (some s.memory.constructions),some .big⟩ (by simp)
    simpa [construct,hk,Kind.construct,allocate,put] using hnew

theorem finish_cases {outcome : Option ℕ → Observation A R X} (h : s.finish outcome = some t) :
    ∃ callable frames, s.frames = callable :: frames ∧
      t = ({ s with frames := frames } : State A R X).observe (outcome callable) := by
  cases hframes : s.frames with
  | nil => simp [finish,hframes] at h
  | cons callable frames => exact ⟨callable,frames,rfl,by simpa [finish,hframes] using h.symm⟩

/-- A call that ends leaves every handler as it is. -/
theorem finish_frame {outcome : Option ℕ → Observation A R X} (h : s.finish outcome = some t) :
    t.holding = s.holding ∧ t.handlers = s.handlers ∧ t.count = s.count := by
  obtain ⟨callable,frames,-,rfl⟩ := finish_cases h
  exact ⟨rfl,rfl,rfl⟩

theorem moveAssign_cases {i j : ℕ} (ha : step s (.moveAssign i j) = some t) :
    ∃ h other, s.handlers i = some h ∧ s.handlers j = some other ∧ t = s.moveAssign i j h := by
  cases hi : s.handlers i with
  | none => simp [step,hi] at ha
  | some h =>
    cases hj : s.handlers j with
    | none => simp [step,hi,hj] at ha
    | some other => exact ⟨h,other,rfl,rfl,by simpa [step,hi,hj] using ha.symm⟩

theorem moveConstruct_moves (hs : Sound s.handlers s.count) (howned : s.holding.Owned) {j : ℕ} {other : Handler}
    (hj : s.handlers j = some other) : Moves s ((s.allocate Handler.empty).constructFrom s.count j)
      (Function.update (Function.update (held s.holding) j none) s.count (held s.holding j))
      (other.kind ≠ some .small) ∧
    Sound ((s.allocate Handler.empty).constructFrom s.count j).handlers
      ((s.allocate Handler.empty).constructFrom s.count j).count := by
  have hholding := allocate_holding hs
  have hsound := allocate_sound hs Handler.empty (by simp [Handler.empty])
  have hij : s.count ≠ j := (hs.lt hj).ne'
  have hi' : (s.allocate Handler.empty).handlers s.count = some ⟨.raw,none⟩ := by
    simp [allocate,put,Handler.empty]
  have hj' : (s.allocate Handler.empty).handlers j = some other := by simp [allocate,put,hij.symm,hj]
  have hmoves := constructFrom_moves hsound (hholding ▸ howned) hij hi' hj'
  rw [hholding] at hmoves
  refine ⟨?_,constructFrom_sound hsound hij hi' hj'⟩
  simpa using (Moves.none hholding).trans howned hmoves

theorem moveAssign_moves (hs : Sound s.handlers s.count) (howned : s.holding.Owned) {i j : ℕ} (hij : i ≠ j)
    {h other : Handler} (hi : s.handlers i = some h) (hj : s.handlers j = some other) :
    Moves s (s.moveAssign i j h) (Function.update (Function.update (held s.holding) j none) i (held s.holding j))
      (other.kind ≠ some .small) ∧
    Sound (s.moveAssign i j h).handlers (s.moveAssign i j h).count := by
  have hvacated := vacated_moves hs hi
  have hsound := vacated_sound hs hi
  obtain ⟨st,hhandlers⟩ := vacated_handlers s hi
  have hi' : (s.vacated i h).handlers i = some ⟨st,none⟩ := by simp [hhandlers]
  have hj' : (s.vacated i h).handlers j = some other := by simp [hhandlers,hij.symm,hj]
  have howned' := hvacated.owned howned
  have hmoves := constructFrom_moves hsound howned' hij hi' hj'
  rw [hvacated.held_eq howned] at hmoves
  rw [moveAssign_eq s hij]
  refine ⟨?_,constructFrom_sound hsound hij hi' hj'⟩
  have hcontents : Function.update (Function.update (Function.update (held s.holding) i none) j none) i
      (Function.update (held s.holding) i none j) =
      Function.update (Function.update (held s.holding) j none) i (held s.holding j) := by
    funext l
    by_cases hli : l = i
    · subst hli
      simp [hij.symm]
    · simp [hli,Function.update_apply]
  rw [hcontents] at hmoves
  simpa using hvacated.trans howned hmoves

theorem step_moves (hs : Sound s.handlers s.count) (howned : s.holding.Owned) (hapart : a.apart = true)
    (ha : step s a = some t) : Moves s t (s.contentsAfter a) (s.tidy a = true) ∧ Sound t.handlers t.count := by
  cases a with
  | default =>
    obtain rfl := Option.some.inj ha
    refine ⟨?_,allocate_sound hs _ (by simp [Handler.empty])⟩
    simpa [contentsAfter,tidy] using Moves.none (allocate_holding hs)
  | construct size =>
    obtain rfl := Option.some.inj ha
    exact ⟨by simpa [contentsAfter,tidy] using construct_moves hs size,construct_sound hs size⟩
  | moveConstruct j =>
    obtain ⟨other,hj,rfl⟩ := Option.map_eq_some_iff.mp ha
    have hkind : s.kindAt j = other.kind := by simp [kindAt,hj]
    obtain ⟨hmoves,hsound⟩ := moveConstruct_moves hs howned hj
    exact ⟨by simpa [contentsAfter,tidy,hkind] using hmoves,hsound⟩
  | moveAssign i j =>
    obtain ⟨h,other,hi,hj,rfl⟩ := moveAssign_cases ha
    have hkind : s.kindAt j = other.kind := by simp [kindAt,hj]
    obtain ⟨hmoves,hsound⟩ := moveAssign_moves hs howned (by simpa [Action.apart] using hapart) hi hj
    exact ⟨by simpa [contentsAfter,tidy,hkind] using hmoves,hsound⟩
  | invoke i args =>
    obtain ⟨h,hi,rfl⟩ := Option.map_eq_some_iff.mp ha
    have hkind : s.kindAt i = h.kind := by simp [kindAt,hi]
    refine ⟨?_,invoke_sound hs hi args⟩
    simpa [contentsAfter,tidy,hkind] using invoke_moves hs hi args
  | hasValue i =>
    obtain ⟨h,hi,rfl⟩ := Option.map_eq_some_iff.mp ha
    refine ⟨?_,hs⟩
    simpa [contentsAfter,tidy] using Moves.none (observe_holding s _)
  | destroy i =>
    obtain ⟨h,hi,rfl⟩ := Option.map_eq_some_iff.mp ha
    refine ⟨by simpa [contentsAfter,tidy] using destroy_moves hs hi,?_⟩
    have hgone := hs.update (hs.lt hi) (k := none) (by simp)
    have hhandlers : ((s.destruct i h).put i none).handlers = Function.update s.handlers i none :=
      destruct_handlers s i h none
    have hcount : ((s.destruct i h).put i none).count = s.count := destruct_count s i h
    rwa [hhandlers,hcount]
  | returned r =>
    obtain ⟨hholding,hhandlers,hcount⟩ := finish_frame ha
    refine ⟨?_,by rwa [hhandlers,hcount]⟩
    simpa [contentsAfter,tidy] using Moves.none hholding
  | threw x =>
    obtain ⟨hholding,hhandlers,hcount⟩ := finish_frame ha
    refine ⟨?_,by rwa [hhandlers,hcount]⟩
    simpa [contentsAfter,tidy] using Moves.none hholding

end PolyHandler
end BeastWebsocketEcho
