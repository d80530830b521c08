import BeastWebsocketEcho.AsyncQueueWakeup
import BeastWebsocketEcho.MoveOnly

/-!
# The handles of asynchronous queues

`basic_async_queue` holds its implementation, or nothing once it was moved from. The machine has
any number of handle objects and of implementations, each of which is a queue machine with its
own tasks; what is called on an implementation is called through a handle that holds it.
-/

namespace BeastWebsocketEcho
namespace AsyncQueue

variable {V : Type}

/-- A member of the implementation is called; the other actions are taken by executors. -/
def Action.isCall : Action V → Bool
  | .push _ _ | .stop _ | .asyncPop _ _ => true
  | _ => false

namespace Queues

/-- `stops` lists the implementations on which a handle called `stop` in its destructor. -/
structure State (V : Type) where
  handles : Handles ℕ
  impls : List (AsyncQueue.State V)
  stops : List ℕ

inductive Action (V : Type)
  | construct (exec : ℕ)
  | moveConstruct (other : ℕ)
  | moveAssign (this other : ℕ) (onExecutor : Bool)
  | destroy (this : ℕ) (onExecutor : Bool)
  | call (this : ℕ) (a : AsyncQueue.Action V)
  | run (impl : ℕ) (a : AsyncQueue.Action V)

namespace State

def init : State V := ⟨[],[],[]⟩

/-- `impl_->f(...)`, or a step of the tasks and handlers of an implementation. -/
def act (s : State V) (k : ℕ) (a : AsyncQueue.Action V) : Option (State V) :=
  ((s.impls[k]?).bind fun q => (AsyncQueue.machine V).step q a).map fun q => { s with impls := s.impls.set k q }

def construct (s : State V) (exec : ℕ) : State V :=
  { s with handles := s.handles.create (some s.impls.length), impls := s.impls ++ [AsyncQueue.State.init exec] }

def moveConstruct (s : State V) (other : ℕ) : Option (State V) :=
  (s.handles.moveConstruct other).map fun hs => { s with handles := hs }

def swap (s : State V) (i j : ℕ) : Option (State V) := (s.handles.swap i j).map fun hs => { s with handles := hs }

def destruct (s : State V) (this : ℕ) (onExecutor : Bool) : Option (State V) :=
  (s.handles.destroy this).bind fun x =>
    match x.1 with
    | none => some { s with handles := x.2 }
    | some k => (s.act k (.stop onExecutor)).map fun t => { t with handles := x.2, stops := s.stops ++ [k] }

/-- `operator=`: a temporary is constructed from `other`, swapped with `this` and destroyed. -/
def moveAssign (s : State V) (this other : ℕ) (onExecutor : Bool) : Option (State V) :=
  let tmp := s.handles.length
  (s.handles.holds this).bind fun _ =>
    (s.moveConstruct other).bind fun t => (t.swap this tmp).bind fun u => u.destruct tmp onExecutor

end State

def step (s : State V) : Action V → Option (State V)
  | .construct exec => some (s.construct exec)
  | .moveConstruct other => s.moveConstruct other
  | .moveAssign this other onExecutor => s.moveAssign this other onExecutor
  | .destroy this onExecutor => s.destruct this onExecutor
  | .call this a => if a.isCall then (s.handles.resource this).bind fun k => s.act k a else none
  | .run k a => if a.isCall then none else s.act k a

def machine (V : Type) : Machine (State V) (Action V) := ⟨fun s => s = State.init,step⟩

/-- The implementation whose last handle is destroyed or assigned over. -/
def State.givenUp (s : State V) : Action V → Option ℕ
  | .destroy this _ => s.handles.resource this
  | .moveAssign this other _ => if this = other then none else s.handles.resource this
  | _ => none

variable {s t : State V} {i j k : ℕ}

theorem act_cases {a : AsyncQueue.Action V} (h : s.act k a = some t) :
    ∃ q r, s.impls[k]? = some q ∧ (AsyncQueue.machine V).step q a = some r ∧
      t = { s with impls := s.impls.set k r } := by
  obtain ⟨r,hr,rfl⟩ := Option.map_eq_some_iff.mp h
  obtain ⟨q,hq,hstep⟩ := Option.bind_eq_some_iff.mp hr
  exact ⟨q,r,hq,hstep,rfl⟩

/-- What a handle operation does to the implementations: it calls `stop` on the one that is given up,
if there is one. -/
inductive Stops (s : State V) (hs : Handles ℕ) : Option ℕ → State V → Prop
  | none : Stops s hs none { s with handles := hs }
  | some (k : ℕ) (onExecutor : Bool) (q r : AsyncQueue.State V) : s.impls[k]? = some q →
      (AsyncQueue.machine V).step q (.stop onExecutor) = some r →
      Stops s hs (some k) ⟨hs,s.impls.set k r,s.stops ++ [k]⟩

theorem Stops.of_handles {s' : State V} {hs : Handles ℕ} {r : Option ℕ} (h : Stops s' hs r t)
    (himpls : s'.impls = s.impls) (hstops : s'.stops = s.stops) : Stops s hs r t := by
  obtain ⟨handles,impls,stops⟩ := s
  obtain ⟨handles',impls',stops'⟩ := s'
  obtain rfl : impls' = impls := himpls
  obtain rfl : stops' = stops := hstops
  cases h with
  | none => exact Stops.none
  | some k onExecutor q r hq hstep => exact Stops.some k onExecutor q r hq hstep

theorem destruct_cases {onExecutor : Bool} (h : s.destruct i onExecutor = some t) :
    ∃ r hs, s.handles.destroy i = some (r,hs) ∧ Stops s hs r t := by
  obtain ⟨⟨r,hs⟩,hdestroy,hrest⟩ := Option.bind_eq_some_iff.mp h
  refine ⟨r,hs,hdestroy,?_⟩
  cases r with
  | none =>
    obtain rfl := Option.some.inj hrest
    exact Stops.none
  | some k =>
    obtain ⟨u,hu,rfl⟩ := Option.map_eq_some_iff.mp hrest
    obtain ⟨q,r,hq,hstep,rfl⟩ := act_cases hu
    exact Stops.some k onExecutor q r hq hstep

inductive Step (s : State V) : Action V → State V → Prop
  | construct (exec : ℕ) : Step s (.construct exec) (s.construct exec)
  | moved (other : ℕ) (hs : Handles ℕ) : hs.held.Perm s.handles.held →
      Step s (.moveConstruct other) { s with handles := hs }
  | gave (a : Action V) (hs : Handles ℕ) (t : State V) : s.handles.held.Perm (hs.held ++ (s.givenUp a).toList) →
      Stops s hs (s.givenUp a) t → Step s a t
  | call (this k : ℕ) (a : AsyncQueue.Action V) (q r : AsyncQueue.State V) : s.handles.resource this = some k →
      s.impls[k]? = some q → (AsyncQueue.machine V).step q a = some r →
      Step s (.call this a) { s with impls := s.impls.set k r }
  | run (k : ℕ) (a : AsyncQueue.Action V) (q r : AsyncQueue.State V) : a.isCall = false → s.impls[k]? = some q →
      (AsyncQueue.machine V).step q a = some r → Step s (.run k a) { s with impls := s.impls.set k r }

theorem step_cases {a : Action V} (h : step s a = some t) : Step s a t := by
  cases a with
  | construct exec =>
    obtain rfl := Option.some.inj h
    exact Step.construct exec
  | moveConstruct other =>
    obtain ⟨hs,hmove,rfl⟩ := Option.map_eq_some_iff.mp h
    exact Step.moved other hs (Handles.held_moveConstruct hmove)
  | destroy this onExecutor =>
    obtain ⟨r,hs,hdestroy,hstops⟩ := destruct_cases h
    have hgiven : s.givenUp (.destroy this onExecutor) = r := by
      obtain ⟨r',hr,heq⟩ := Option.map_eq_some_iff.mp hdestroy
      obtain ⟨rfl,-⟩ := Prod.mk.inj heq
      simp [State.givenUp,Handles.resource,hr]
    exact Step.gave _ hs t (hgiven ▸ Handles.held_destroy hdestroy) (hgiven ▸ hstops)
  | moveAssign this other onExecutor =>
    obtain ⟨before,hbefore,hassign⟩ := Option.bind_eq_some_iff.mp h
    obtain ⟨u,hu,hrest⟩ := Option.bind_eq_some_iff.mp hassign
    obtain ⟨tmp,htmp,rfl⟩ := Option.map_eq_some_iff.mp hu
    obtain ⟨v,hv,hdestruct⟩ := Option.bind_eq_some_iff.mp hrest
    obtain ⟨swapped,hswapped,rfl⟩ := Option.map_eq_some_iff.mp hv
    obtain ⟨r,hs,hdestroy,hstops⟩ := destruct_cases hdestruct
    have hgiven : s.givenUp (.moveAssign this other onExecutor) = r := by
      have hlast := Handles.destroy_swapped hbefore htmp hswapped
      obtain ⟨r',hr,heq⟩ := Option.map_eq_some_iff.mp hdestroy
      obtain ⟨rfl,-⟩ := Prod.mk.inj heq
      rw [Option.some.inj (hr.symm.trans hlast)]
      simp [State.givenUp,Handles.resource,hbefore]
    have hheld : s.handles.held.Perm (hs.held ++ r.toList) := by
      have hmoved : tmp.held.Perm s.handles.held := Handles.held_moveConstruct htmp
      have hexchanged : swapped.held.Perm tmp.held := Handles.held_swap hswapped
      exact (hexchanged.trans hmoved).symm.trans (Handles.held_destroy hdestroy)
    exact Step.gave _ hs t (hgiven ▸ hheld) (hgiven ▸ hstops.of_handles rfl rfl)
  | call this a =>
    obtain ⟨-,hact⟩ := Option.ite_none_right_eq_some.mp h
    obtain ⟨k,hk,hact⟩ := Option.bind_eq_some_iff.mp hact
    obtain ⟨q,r,hq,hstep,rfl⟩ := act_cases hact
    exact Step.call this k a q r hk hq hstep
  | run k a =>
    obtain ⟨hcall,hact⟩ := Option.ite_none_left_eq_some.mp h
    obtain ⟨q,r,hq,hstep,rfl⟩ := act_cases hact
    exact Step.run k a q r (by simpa using hcall) hq hstep

end Queues
end AsyncQueue
end BeastWebsocketEcho
