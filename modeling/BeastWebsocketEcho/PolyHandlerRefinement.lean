import BeastWebsocketEcho.PolyHandlerMemory

/-!
# Handlers as optional callables

The reference of `poly_handler`: an optional callable, whose move empties its source, and
which an invocation takes out before it is run. It knows nothing of storage. The handlers
do what the reference does, action by action, whatever the sizes of their callables are.
-/

namespace BeastWebsocketEcho
namespace PolyHandler

open Holding (held)
open State

variable {A R X : Type*}

@[ext]
structure Reference (A R X : Type*) where
  slots : ℕ → Option (Option ℕ)
  count : ℕ
  callables : ℕ
  frames : List (Option ℕ)
  observed : List (Observation A R X)

namespace Reference

def init : Reference A R X := ⟨fun _ => none,0,0,[],[]⟩

def observe (r : Reference A R X) (e : Observation A R X) : Reference A R X := { r with observed := r.observed ++ [e] }

def put (r : Reference A R X) (i : ℕ) (v : Option (Option ℕ)) : Reference A R X :=
  { r with slots := Function.update r.slots i v }

def allocate (r : Reference A R X) (v : Option ℕ) : Reference A R X :=
  { r.put r.count (some v) with count := r.count + 1 }

def invoke (r : Reference A R X) (i : ℕ) (v : Option ℕ) (args : A) : Reference A R X :=
  match v with
  | none => r.observe (.badFunctionCall i)
  | some c => ({ r.put i (some none) with frames := some c :: r.frames } : Reference A R X).observe (.ran (some c) args)

def finish (r : Reference A R X) (outcome : Option ℕ → Observation A R X) : Option (Reference A R X) :=
  match r.frames with
  | callable :: frames => some (({ r with frames := frames } : Reference A R X).observe (outcome callable))
  | [] => none

def step (r : Reference A R X) : Action A R X → Option (Reference A R X)
  | .default => some (r.allocate none)
  | .construct _ => some ({ r with callables := r.callables + 1 }.allocate (some r.callables))
  | .moveConstruct j => (r.slots j).map fun v => (r.put j (some none)).allocate v
  | .moveAssign i j =>
    match r.slots i,r.slots j with
    | some _,some v => some ((r.put j (some none)).put i (some v))
    | _,_ => none
  | .invoke i args => (r.slots i).map fun v => r.invoke i v args
  | .hasValue i => (r.slots i).map fun v => r.observe (.hasValue i v.isSome)
  | .destroy i => (r.slots i).map fun _ => r.put i none
  | .returned x => r.finish fun callable => .returned callable x
  | .threw x => r.finish fun callable => .threw callable x

def machine : Machine (Reference A R X) (Action A R X) := ⟨fun r => r = init,step⟩

end Reference

namespace State

def alive (s : State A R X) (i : ℕ) : Bool := (s.handlers i).isSome

/-- The handlers that are there, each with its content. -/
def slotsOf (alive : ℕ → Bool) (value : ℕ → Option ℕ) (i : ℕ) : Option (Option ℕ) :=
  if alive i then some (value i) else none

def abs (s : State A R X) : Reference A R X where
  slots := slotsOf s.alive (held s.holding)
  count := s.count
  callables := s.callables
  frames := s.frames
  observed := s.observed

section Fields

variable (s : State A R X) (i j : ℕ) (h : Handler) (k : Option Handler) (f : Handler → Handler)
  (e : Observation A R X) (kind : Option Kind) (st : Storage)

@[simp] theorem alive_update : (s.update i f).alive = s.alive := by
  funext l
  by_cases hl : l = i
  · subst hl
    simp [alive,State.update,put]
  · simp [alive,State.update,put,hl]

@[simp] theorem alive_setKind : (s.setKind i kind).alive = s.alive := alive_update s i _
@[simp] theorem alive_setStorage : (s.setStorage i st).alive = s.alive := alive_update s i _
@[simp] theorem alive_observe : (s.observe e).alive = s.alive := rfl

theorem alive_of_handlers {s t : State A R X} (h : t.handlers = s.handlers) : t.alive = s.alive := by
  funext l
  simp [alive,h]

@[simp] theorem alive_put : (s.put i k).alive = Function.update s.alive i k.isSome := by
  funext l
  by_cases hl : l = i
  · subst hl
    simp [alive,put]
  · simp [alive,put,hl]

@[simp] theorem alive_allocate : (s.allocate h).alive = Function.update s.alive s.count true :=
  alive_put s s.count (some h)

/-- The fields that moves between handlers do not concern. -/
structure SameCalls (s t : State A R X) : Prop where
  callables : t.callables = s.callables
  frames : t.frames = s.frames
  observed : t.observed = s.observed

theorem SameCalls.trans {s t u : State A R X} (hst : SameCalls s t) (htu : SameCalls t u) : SameCalls s u :=
  ⟨htu.callables.trans hst.callables,htu.frames.trans hst.frames,htu.observed.trans hst.observed⟩

theorem destruct_calls : SameCalls s (s.destruct i h) ∧ (s.destruct i h).alive = s.alive := by
  unfold destruct
  split
  · exact ⟨⟨rfl,rfl,rfl⟩,alive_setStorage _ _ _⟩
  · exact ⟨⟨rfl,rfl,rfl⟩,rfl⟩

theorem overwrite_calls : SameCalls s (s.overwrite i) ∧ (s.overwrite i).alive = s.alive := by
  unfold overwrite
  split <;> exact ⟨⟨rfl,rfl,rfl⟩,rfl⟩

theorem constructFrom_calls : SameCalls s (s.constructFrom i j) ∧ (s.constructFrom i j).alive = s.alive := by
  unfold constructFrom
  simp only
  split
  · refine ⟨⟨rfl,rfl,rfl⟩,?_⟩
    rw [alive_setStorage,alive_setStorage]
    exact (alive_setKind _ _ _).trans (alive_setKind _ _ _)
  · exact ⟨⟨rfl,rfl,rfl⟩,(alive_setKind _ _ _).trans (alive_setKind _ _ _)⟩

theorem moveAssign_calls : SameCalls s (s.moveAssign i j h) ∧ (s.moveAssign i j h).alive = s.alive := by
  have hdestruct := destruct_calls s i h
  have hoverwrite := overwrite_calls (s.destruct i h) i
  have hconstruct := constructFrom_calls ((s.destruct i h).overwrite i) i j
  refine ⟨(hdestruct.1.trans hoverwrite.1).trans hconstruct.1,?_⟩
  calc ((s.destruct i h |>.overwrite i).constructFrom i j).alive
      = ((s.destruct i h).overwrite i).alive := hconstruct.2
    _ = (s.destruct i h).alive := hoverwrite.2
    _ = s.alive := hdestruct.2

end Fields

end State

section Slots

variable (live : ℕ → Bool) (value : ℕ → Option ℕ) (i : ℕ)

theorem slotsOf_update (v : Option ℕ) :
    slotsOf (Function.update live i true) (Function.update value i v) =
      Function.update (slotsOf live value) i (some v) := by
  funext l
  by_cases hl : l = i
  · subst hl
    simp [slotsOf]
  · simp [slotsOf,hl]

theorem slotsOf_update_live {live : ℕ → Bool} {i : ℕ} (hi : live i = true) (v : Option ℕ) :
    slotsOf live (Function.update value i v) = Function.update (slotsOf live value) i (some v) := by
  have hsame : Function.update live i true = live := Function.update_eq_self_iff.mpr hi.symm
  rw [← slotsOf_update,hsame]

theorem slotsOf_remove (v : Option ℕ) :
    slotsOf (Function.update live i false) (Function.update value i v) =
      Function.update (slotsOf live value) i none := by
  funext l
  by_cases hl : l = i
  · subst hl
    simp [slotsOf]
  · simp [slotsOf,hl]

end Slots

variable {s t : State A R X} {a : Action A R X}

theorem alive_of_handler {i : ℕ} {h : Handler} (hi : s.handlers i = some h) : s.alive i = true := by
  simp [alive,hi]

theorem abs_slots_of_handler {i : ℕ} {h : Handler} (hi : s.handlers i = some h) :
    s.abs.slots i = some (held s.holding i) := if_pos (alive_of_handler hi)

theorem abs_slots_none {i : ℕ} (hi : s.handlers i = none) : s.abs.slots i = none := by
  simp [State.abs,slotsOf,alive,hi]

/-- A handler has a value when it holds a callable. -/
theorem hasValue_eq (hs : Kept s) {i : ℕ} {h : Handler} (hi : s.handlers i = some h) :
    h.hasValue = (held s.holding i).isSome := by
  have htarget := targets_of_handler hi
  rcases handler_cases h (hs.sound.typed i h hi) with ⟨st,rfl⟩ | ⟨k,n,rfl⟩
  · simp [Handler.hasValue,held,htarget]
  · rw [target_owning] at htarget
    have hcontent := hs.owned.content i n htarget
    simpa [Handler.hasValue,held,htarget] using hcontent.symm

theorem abs_finish (outcome : Option ℕ → Observation A R X) :
    (s.finish outcome).map State.abs = s.abs.finish outcome := by
  cases hframes : s.frames with
  | nil => simp [State.finish,Reference.finish,State.abs,hframes]
  | cons callable frames =>
    have habs : s.abs.frames = callable :: frames := hframes
    simp only [State.finish,Reference.finish,hframes,habs]
    rfl

theorem abs_allocate (hs : Kept s) : (s.allocate Handler.empty).abs = s.abs.allocate none := by
  have hheld : held (s.allocate Handler.empty).holding = held s.holding := by rw [allocate_holding hs.sound]
  have hfresh : held s.holding s.count = none := by simp [held,targets,hs.sound.fresh s.count le_rfl]
  have hsame : Function.update (held s.holding) s.count none = held s.holding :=
    Function.update_eq_self_iff.mpr hfresh.symm
  have hslots : slotsOf (s.allocate Handler.empty).alive (held (s.allocate Handler.empty).holding) =
      Function.update s.abs.slots s.count (some none) := by
    rw [alive_allocate,hheld,State.abs,← slotsOf_update,hsame]
  exact Reference.ext hslots rfl rfl rfl rfl

theorem abs_construct (hs : Kept s) (size : ℕ) :
    (s.construct size).abs = { s.abs with callables := s.callables + 1 }.allocate (some s.callables) := by
  have hheld := (construct_moves hs.sound size).held_eq hs.owned
  have halive : (s.construct size).alive = Function.update s.alive s.count true :=
    alive_allocate ({ s with memory := _, callables := s.callables + 1 } : State A R X) _
  have hslots : slotsOf (s.construct size).alive (held (s.construct size).holding) =
      Function.update s.abs.slots s.count (some (some s.callables)) := by
    rw [halive,hheld,State.abs,← slotsOf_update]
  exact Reference.ext hslots rfl rfl rfl rfl

theorem abs_moveConstruct (hs : Kept s) {j : ℕ} {other : Handler} (hj : s.handlers j = some other) :
    ((s.allocate Handler.empty).constructFrom s.count j).abs =
      (s.abs.put j (some none)).allocate (held s.holding j) := by
  have hheld := (moveConstruct_moves hs.sound hs.owned hj).1.held_eq hs.owned
  obtain ⟨hcalls,halive⟩ := constructFrom_calls (s.allocate Handler.empty) s.count j
  have hslots : slotsOf ((s.allocate Handler.empty).constructFrom s.count j).alive
      (held ((s.allocate Handler.empty).constructFrom s.count j).holding) =
      Function.update (Function.update s.abs.slots j (some none)) s.count (some (held s.holding j)) := by
    rw [halive,alive_allocate,hheld,slotsOf_update,slotsOf_update_live _ (alive_of_handler hj)]
    rfl
  exact Reference.ext hslots (constructFrom_count _ _ _) hcalls.callables hcalls.frames hcalls.observed

theorem abs_moveAssign (hs : Kept s) {i j : ℕ} (hij : i ≠ j) {h other : Handler} (hi : s.handlers i = some h)
    (hj : s.handlers j = some other) :
    (s.moveAssign i j h).abs = (s.abs.put j (some none)).put i (some (held s.holding j)) := by
  have hheld := (moveAssign_moves hs.sound hs.owned hij hi hj).1.held_eq hs.owned
  obtain ⟨hcalls,halive⟩ := moveAssign_calls s i j h
  have hslots : slotsOf (s.moveAssign i j h).alive (held (s.moveAssign i j h).holding) =
      Function.update (Function.update s.abs.slots j (some none)) i (some (held s.holding j)) := by
    rw [halive,hheld,slotsOf_update_live _ (alive_of_handler hi),slotsOf_update_live _ (alive_of_handler hj)]
    rfl
  exact Reference.ext hslots (by simp [moveAssign,State.abs,Reference.put]) hcalls.callables hcalls.frames
    hcalls.observed

/-- The callable that is run is the one that the handler holds. -/
theorem abs_invoke (hs : Kept s) {i : ℕ} {h : Handler} (hi : s.handlers i = some h) (args : A) :
    (s.invoke i h args).abs = s.abs.invoke i (held s.holding i) args := by
  have hheld := (invoke_moves hs.sound hi args).held_eq hs.owned
  have halive : (s.invoke i h args).alive = s.alive := by
    unfold State.invoke
    split
    · exact alive_setKind _ _ _
    · exact (alive_setStorage _ _ _).trans (alive_setKind _ _ _)
  have hslots : slotsOf (s.invoke i h args).alive (held (s.invoke i h args).holding) =
      Function.update s.abs.slots i (some none) := by
    rw [halive,hheld,slotsOf_update_live _ (alive_of_handler hi)]
    rfl
  rcases handler_cases h (hs.sound.typed i h hi) with ⟨st,rfl⟩ | ⟨k,n,rfl⟩
  · have hnone : held s.holding i = none := by simp [held,targets_of_handler hi]
    have hsame : Function.update s.abs.slots i (some none) = s.abs.slots := by
      rw [Function.update_eq_self_iff,abs_slots_of_handler hi,hnone]
    rw [hnone]
    exact Reference.ext (hslots.trans hsame) rfl rfl rfl rfl
  · have htarget : targets s.handlers i = some n := by simp [targets_of_handler hi]
    obtain ⟨c,hc⟩ := Option.isSome_iff_exists.mp (hs.owned.content i n htarget)
    have hcontent : s.memory.contents n = some c := hc
    have hvalue : held s.holding i = some c := by simpa [held,htarget] using hcontent
    have hrun : (k.invoke (owning k n).storage s.memory).1 = some c := by
      cases k <;> exact hcontent
    rw [hvalue]
    refine Reference.ext hslots ?_ ?_ ?_ ?_
    all_goals simp [State.invoke,Reference.invoke,State.abs,State.observe,Reference.observe,Reference.put,setKind,
      setStorage,State.update,State.put,hrun]

theorem abs_destroy (hs : Kept s) {i : ℕ} {h : Handler} (hi : s.handlers i = some h) :
    ((s.destruct i h).put i none).abs = s.abs.put i none := by
  have hheld := (destroy_moves hs.sound hi).held_eq hs.owned
  obtain ⟨hcalls,halive⟩ := destruct_calls s i h
  have hslots : slotsOf ((s.destruct i h).put i none).alive (held ((s.destruct i h).put i none).holding) =
      Function.update s.abs.slots i none := by
    rw [alive_put,halive,hheld]
    exact slotsOf_remove _ _ _ _
  exact Reference.ext hslots (destruct_count s i h) hcalls.callables hcalls.frames hcalls.observed

theorem step_refines (hs : Kept s) (hapart : a.apart = true) :
    (step s a).map State.abs = s.abs.step a := by
  cases a with
  | default => exact congrArg some (abs_allocate hs)
  | construct size => exact congrArg some (abs_construct hs size)
  | moveConstruct j =>
    cases hj : s.handlers j with
    | none => simp [step,Reference.step,hj,abs_slots_none hj]
    | some other => simp [step,Reference.step,hj,abs_slots_of_handler hj,abs_moveConstruct hs hj]
  | moveAssign i j =>
    have hij : i ≠ j := by simpa [Action.apart] using hapart
    cases hi : s.handlers i with
    | none => simp [step,Reference.step,hi,abs_slots_none hi]
    | some h =>
      cases hj : s.handlers j with
      | none => simp [step,Reference.step,hi,hj,abs_slots_none hj]
      | some other =>
        simp [step,Reference.step,hi,hj,abs_slots_of_handler hi,abs_slots_of_handler hj,abs_moveAssign hs hij hi hj]
  | invoke i args =>
    cases hi : s.handlers i with
    | none => simp [step,Reference.step,hi,abs_slots_none hi]
    | some h => simp [step,Reference.step,hi,abs_slots_of_handler hi,abs_invoke hs hi args]
  | hasValue i =>
    cases hi : s.handlers i with
    | none => simp [step,Reference.step,hi,abs_slots_none hi]
    | some h =>
      simp only [step,Reference.step,hi,abs_slots_of_handler hi,Option.map_some,← hasValue_eq hs hi]
      rfl
  | destroy i =>
    cases hi : s.handlers i with
    | none => simp [step,Reference.step,hi,abs_slots_none hi]
    | some h => simp [step,Reference.step,hi,abs_slots_of_handler hi,abs_destroy hs hi]
  | returned x => exact abs_finish _
  | threw x => exact abs_finish _

theorem replay_refines {as : List (Action A R X)} (h : ∀ a ∈ as, a.apart = true) :
    (machine.replay State.init as).map State.abs = Reference.machine.replay Reference.init as := by
  have hinit : (State.init : State A R X).abs = Reference.init := by
    refine Reference.ext ?_ rfl rfl rfl rfl
    funext i
    simp [State.abs,slotsOf,alive,State.init,Reference.init]
  rw [← hinit]
  exact Machine.replay_map (I := Kept) (fun s a hs ha => step_refines hs ha)
    (fun s a t hs ha hstep => kept_apart hs ha hstep) kept_init h

/-- The callable that an observation shows to be run. -/
def Observation.callable? : Observation A R X → Option ℕ
  | .ran callable _ => callable
  | _ => none

def runs (observed : List (Observation A R X)) : List ℕ := observed.filterMap Observation.callable?

@[simp] theorem runs_snoc (observed : List (Observation A R X)) (e : Observation A R X) :
    runs (observed ++ [e]) = runs observed ++ e.callable?.toList := by
  rw [runs,List.filterMap_append,filterMap_cons_toList]
  simp [runs]

namespace Reference

def value (r : Reference A R X) (i : ℕ) : Option ℕ := (r.slots i).join

/-- A callable is in one slot, or was run once. -/
structure OneShot (value : ℕ → Option ℕ) (callables : ℕ) (ran : List ℕ) : Prop where
  unique : Single value
  bound : ∀ i c, value i = some c → c < callables
  fresh : ∀ i c, value i = some c → c ∉ ran
  ran_bound : ∀ c ∈ ran, c < callables
  nodup : ran.Nodup

namespace OneShot

variable {value : ℕ → Option ℕ} {callables : ℕ} {ran : List ℕ} {i j : ℕ}

theorem remove (h : OneShot value callables ran) (i : ℕ) :
    OneShot (Function.update value i none) callables ran where
  unique := h.unique.remove i
  bound l c hl := h.bound l c (of_update_none hl).2
  fresh l c hl := h.fresh l c (of_update_none hl).2
  ran_bound := h.ran_bound
  nodup := h.nodup

theorem add (h : OneShot value callables ran) (i : ℕ) :
    OneShot (Function.update value i (some callables)) (callables + 1) ran where
  unique := h.unique.add (fun l hl => (h.bound l _ hl).false) i
  bound l c hl := by
    rcases update_some_iff.mp hl with ⟨-,hc⟩ | ⟨-,hc⟩
    · obtain rfl := Option.some.inj hc
      exact Nat.lt_succ_self _
    · exact Nat.lt_succ_of_lt (h.bound l c hc)
  fresh l c hl := by
    rcases update_some_iff.mp hl with ⟨-,hc⟩ | ⟨-,hc⟩
    · obtain rfl := Option.some.inj hc
      exact fun hran => (h.ran_bound _ hran).false
    · exact h.fresh l c hc
  ran_bound c hc := Nat.lt_succ_of_lt (h.ran_bound c hc)
  nodup := h.nodup

theorem pass (h : OneShot value callables ran) (i j : ℕ) :
    OneShot (Function.update (Function.update value j none) i (value j)) callables ran where
  unique := h.unique.pass i j
  bound l c hl := by
    obtain ⟨l',hc⟩ := of_pass hl
    exact h.bound l' c hc
  fresh l c hl := by
    obtain ⟨l',hc⟩ := of_pass hl
    exact h.fresh l' c hc
  ran_bound := h.ran_bound
  nodup := h.nodup

theorem run (h : OneShot value callables ran) {c : ℕ} (hi : value i = some c) :
    OneShot (Function.update value i none) callables (ran ++ [c]) where
  unique := h.unique.remove i
  bound l d hl := h.bound l d (of_update_none hl).2
  fresh l d hl := by
    obtain ⟨hli,hd⟩ := of_update_none hl
    have hdc : d ≠ c := fun hdc => hli (h.unique l i d hd (hdc ▸ hi))
    simpa [hdc] using h.fresh l d hd
  ran_bound d hd := by
    rcases List.mem_append.mp hd with hd | hd
    · exact h.ran_bound d hd
    · obtain rfl := List.mem_singleton.mp hd
      exact h.bound i d hi
  nodup := by
    have hc := h.fresh i c hi
    exact List.nodup_append.mpr ⟨h.nodup,by simp,by
      rintro x hx y hy rfl
      exact hc (List.mem_singleton.mp hy ▸ hx)⟩

end OneShot

variable {r r' : Reference A R X} {a : Action A R X}

theorem value_put (r : Reference A R X) (i : ℕ) (v : Option (Option ℕ)) :
    (r.put i v).value = Function.update r.value i v.join := by
  funext l
  by_cases hl : l = i
  · subst hl
    simp [value,put]
  · simp [value,put,hl]

theorem value_allocate (r : Reference A R X) (v : Option ℕ) :
    (r.allocate v).value = Function.update r.value r.count v := value_put r r.count (some v)

theorem value_of_slot {i : ℕ} {v : Option ℕ} (hi : r.slots i = some v) : r.value i = v := by simp [value,hi]

def Good (r : Reference A R X) : Prop := OneShot r.value r.callables (runs r.observed)

theorem good_observe {e : Observation A R X} (hr : Good r) (he : e.callable? = none) : Good (r.observe e) := by
  have hruns : runs (r.observe e).observed = runs r.observed := by simp [observe,he]
  unfold Good
  rw [hruns]
  exact hr

theorem good_finish {outcome : Option ℕ → Observation A R X} (hr : Good r)
    (hquiet : ∀ c, (outcome c).callable? = none) (h : r.finish outcome = some r') : Good r' := by
  cases hframes : r.frames with
  | nil => simp [finish,hframes] at h
  | cons callable frames =>
    obtain rfl : r' = ({ r with frames := frames } : Reference A R X).observe (outcome callable) := by
      simpa [finish,hframes] using h.symm
    exact good_observe (r := { r with frames := frames }) hr (hquiet callable)

theorem good_step (hr : Good r) (ha : r.step a = some r') : Good r' := by
  cases a with
  | default =>
    obtain rfl := Option.some.inj ha
    unfold Good
    rw [value_allocate]
    exact hr.remove r.count
  | construct size =>
    obtain rfl := Option.some.inj ha
    unfold Good
    rw [value_allocate]
    exact hr.add r.count
  | moveConstruct j =>
    obtain ⟨v,hj,rfl⟩ := Option.map_eq_some_iff.mp ha
    unfold Good
    rw [value_allocate,value_put,← value_of_slot hj]
    exact hr.pass r.count j
  | moveAssign i j =>
    obtain ⟨v,hj,rfl⟩ : ∃ v, r.slots j = some v ∧ r' = (r.put j (some none)).put i (some v) := by
      cases hi : r.slots i with
      | none => simp [step,hi] at ha
      | some w =>
        cases hj : r.slots j with
        | none => simp [step,hi,hj] at ha
        | some v => exact ⟨v,rfl,by simpa [step,hi,hj] using ha.symm⟩
    unfold Good
    rw [value_put,value_put,← value_of_slot hj]
    exact hr.pass i j
  | invoke i args =>
    obtain ⟨v,hi,rfl⟩ := Option.map_eq_some_iff.mp ha
    cases v with
    | none => exact good_observe hr rfl
    | some c =>
      have hrun := hr.run (value_of_slot hi)
      unfold Good
      rw [show (r.invoke i (some c) args).value = Function.update r.value i none from value_put r i (some none),
        show runs (r.invoke i (some c) args).observed = runs r.observed ++ [c] from runs_snoc _ _]
      exact hrun
  | hasValue i =>
    obtain ⟨v,hi,rfl⟩ := Option.map_eq_some_iff.mp ha
    exact good_observe hr rfl
  | destroy i =>
    obtain ⟨v,hi,rfl⟩ := Option.map_eq_some_iff.mp ha
    unfold Good
    rw [value_put]
    exact hr.remove i
  | returned x => exact good_finish hr (fun c => rfl) ha
  | threw x => exact good_finish hr (fun c => rfl) ha

theorem good_init : Good (init : Reference A R X) where
  unique := by simp [init,value,Single]
  bound := by simp [init,value]
  fresh := by simp [init,value]
  ran_bound := by simp [init,runs]
  nodup := by simp [init,runs]

theorem good_of_replay {as : List (Action A R X)} (h : machine.replay init as = some r) : Good r :=
  (Machine.Exec.of_replay h).invariant (I := Good) (fun _ _ _ hr ha => good_step hr ha) good_init

end Reference

/-- An action without the size of its callable. -/
def Action.sizeless : Action A R X → Action A R X
  | .construct _ => .construct 0
  | a => a

theorem Action.apart_sizeless (a : Action A R X) : a.sizeless.apart = a.apart := by cases a <;> rfl

/-- The reference does not see sizes. -/
theorem Reference.step_sizeless (r : Reference A R X) (a : Action A R X) : r.step a.sizeless = r.step a := by
  cases a <;> rfl

theorem Reference.replay_sizeless (r : Reference A R X) (as : List (Action A R X)) :
    Reference.machine.replay r (as.map Action.sizeless) = Reference.machine.replay r as := by
  induction as generalizing r with
  | nil => rfl
  | cons a as ih =>
    simp only [List.map_cons,Machine.replay,Reference.machine,Reference.step_sizeless]
    exact congrArg _ (funext ih)

def observations (as : List (Action A R X)) : Option (List (Observation A R X)) :=
  (machine.replay State.init as).map State.observed

theorem observations_eq {as : List (Action A R X)} (h : ∀ a ∈ as, a.apart = true) :
    observations as = (Reference.machine.replay Reference.init as).map Reference.observed := by
  rw [← replay_refines h,Option.map_map]
  rfl

theorem observations_sizeless {as bs : List (Action A R X)} (h : ∀ a ∈ as, a.apart = true)
    (heq : as.map Action.sizeless = bs.map Action.sizeless) : observations as = observations bs := by
  have hbs : ∀ b ∈ bs, b.apart = true := by
    intro b hb
    have hmem : b.sizeless ∈ as.map Action.sizeless := heq ▸ List.mem_map_of_mem hb
    obtain ⟨a,ha,hab⟩ := List.mem_map.mp hmem
    rw [← Action.apart_sizeless,← hab,Action.apart_sizeless]
    exact h a ha
  rw [observations_eq h,observations_eq hbs,← Reference.replay_sizeless _ as,heq,Reference.replay_sizeless]

theorem runs_nodup {as : List (Action A R X)} (h : ∀ a ∈ as, a.apart = true) {observed : List (Observation A R X)}
    (ho : observations as = some observed) : (runs observed).Nodup := by
  rw [observations_eq h] at ho
  obtain ⟨r,hr,rfl⟩ := Option.map_eq_some_iff.mp ho
  exact (Reference.good_of_replay hr).nodup

/-- The callables that the handlers hold when a call ends are those they hold after it. -/
theorem slots_of_finish {outcome : Option ℕ → Observation A R X} (h : s.finish outcome = some t) :
    t.abs.slots = s.abs.slots := by
  obtain ⟨hholding,hhandlers,-⟩ := finish_frame h
  have halive := alive_of_handlers hhandlers
  simp only [State.abs,hholding,halive]

/-- A handler is an optional callable that is run at most once: between different handlers, every run of them shows
what the same run of the reference shows, whatever the sizes of the callables are, and when a call returns or throws,
every handler still has what was assigned to it by then. -/
theorem behaves_as_optional (as : List (Action A R X)) (h : ∀ a ∈ as, a.apart = true) :
    observations as = (Reference.machine.replay Reference.init as).map Reference.observed ∧
      (∀ bs, as.map Action.sizeless = bs.map Action.sizeless → observations bs = observations as) ∧
      (∀ observed, observations as = some observed → (runs observed).Nodup) ∧
      ∀ s t, machine.replay State.init as = some s →
        (∃ r, step s (.returned r) = some t) ∨ (∃ x, step s (.threw x) = some t) → t.abs.slots = s.abs.slots := by
  refine ⟨observations_eq h,fun bs heq => (observations_sizeless h heq).symm,fun _ ho => runs_nodup h ho,?_⟩
  rintro s t - (⟨r,ht⟩ | ⟨x,ht⟩)
  · exact slots_of_finish ht
  · exact slots_of_finish ht

/-- The body of a callable assigns another one to the handler it is called through, and throws; the other one is
run by the next call. -/
def reassigned (size other : ℕ) : List (Action ℕ ℕ ℕ) :=
  [.construct size,.invoke 0 7,.construct other,.moveAssign 0 1,.destroy 1,.threw 3,.hasValue 0,.invoke 0 8,
    .returned 5,.invoke 0 9]

theorem reassigned_runs : observations (reassigned 8 64) =
    some [.ran (some 0) 7,.threw (some 0) 3,.hasValue 0 true,.ran (some 1) 8,.returned (some 1) 5,.badFunctionCall 0] :=
  (behaves_as_optional (reassigned 8 64) (by decide)).1.trans rfl

end PolyHandler
end BeastWebsocketEcho
