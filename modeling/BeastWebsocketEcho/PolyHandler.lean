import BeastWebsocketEcho.Ownership

/-!
# The polymorphic completion handler

`poly_handler`: a union of six pointers' room and a pointer to a heap buffer, with the vtable
of what it holds. The objects that the vtables build, move from, destroy and release are
numbered; the content of an object is the callable that was moved into it. A callable that
runs does anything to any handler before it returns or throws, so the body of a call is
whatever actions come between its start and its end.
-/

namespace BeastWebsocketEcho
namespace PolyHandler

def sizeofStorage : ℕ := 6 * 8

/-- Which vtable: `make_small_poly_handler_vtable` or `make_big_poly_handler_vtable`. -/
inductive Kind
  | small | big
  deriving DecidableEq, Repr

/-- `sbo_storage`: never written, an object in place, or a pointer to a buffer with an object. -/
inductive Storage
  | raw
  | short (object : ℕ)
  | long (buffer : Option ℕ)
  deriving DecidableEq, Repr

structure Handler where
  storage : Storage
  kind : Option Kind
  deriving DecidableEq, Repr

def Handler.empty : Handler := ⟨.raw,none⟩

def Handler.hasValue (h : Handler) : Bool := h.kind.isSome

def Handler.target (h : Handler) : Option ℕ :=
  match h.kind,h.storage with
  | some .small,.short n => some n
  | some .big,.long p => p
  | _,_ => none

namespace Kind

def ofSize (size : ℕ) : Kind := if size > sizeofStorage then .big else .small

def construct (k : Kind) (m : Memory ℕ) (callable : ℕ) : Storage × Memory ℕ :=
  match k with
  | .small => (.short m.constructions,m.construct (some callable))
  | .big => (.long (some m.constructions),m.construct (some callable))

/-- `move_construct(storage, sbo_storage &source)`: the new storage, and what is left of the source. -/
def moveConstruct (k : Kind) (source : Storage) (m : Memory ℕ) : Storage × Storage × Memory ℕ :=
  match k,source with
  | .small,.short n => (.short m.constructions,.short n,(m.moveFrom n).construct (m.contents n))
  | .big,.long p => (.long p,.long none,m)
  | _,_ => (.raw,source,m.touch .stray)

/-- `destroy`: the bytes of an inline object stay, a pointer is null once its buffer is released. -/
def destroy (k : Kind) (storage : Storage) (m : Memory ℕ) : Storage × Memory ℕ :=
  match k,storage with
  | .small,.short n => (.short n,m.touch (.destroyed n))
  | .big,.long (some n) => (.long none,(m.touch (.destroyed n)).touch (.released n))
  | .big,.long none => (.long none,m)
  | _,_ => (storage,m.touch .stray)

/-- `invoke` up to the call: what is moved into `act`, and what is left. -/
def invoke (k : Kind) (storage : Storage) (m : Memory ℕ) : Option ℕ × Storage × Memory ℕ :=
  match k,storage with
  | .small,.short n => (m.contents n,destroy .small (.short n) (m.moveFrom n))
  | .big,.long (some n) => (m.contents n,destroy .big (.long none) ((m.moveFrom n).touch (.released n)))
  | _,_ => (none,storage,m.touch .stray)

end Kind

/-- What a user sees: answers of `has_value`, the calls, and what comes out of them. -/
inductive Observation (A R X : Type*)
  | hasValue (handler : ℕ) (answer : Bool)
  | ran (callable : Option ℕ) (args : A)
  | returned (callable : Option ℕ) (result : R)
  | threw (callable : Option ℕ) (exception : X)
  | badFunctionCall (handler : ℕ)
  deriving DecidableEq, Repr

@[ext]
structure State (A R X : Type*) where
  handlers : ℕ → Option Handler
  /-- How many handlers were constructed. -/
  count : ℕ
  memory : Memory ℕ
  /-- How many callables handlers were constructed from. -/
  callables : ℕ
  /-- The callables that are running, innermost first. -/
  frames : List (Option ℕ)
  observed : List (Observation A R X)

inductive Action (A R X : Type*)
  | default
  | construct (size : ℕ)
  | moveConstruct (source : ℕ)
  | moveAssign (handler source : ℕ)
  | invoke (handler : ℕ) (args : A)
  | hasValue (handler : ℕ)
  | destroy (handler : ℕ)
  /-- The innermost call ends. -/
  | returned (result : R)
  | threw (exception : X)
  deriving DecidableEq, Repr

namespace State

variable {A R X : Type*}

def init : State A R X := ⟨fun _ => none,0,Memory.empty,0,[],[]⟩

def observe (s : State A R X) (e : Observation A R X) : State A R X := { s with observed := s.observed ++ [e] }

def put (s : State A R X) (i : ℕ) (h : Option Handler) : State A R X :=
  { s with handlers := Function.update s.handlers i h }

def update (s : State A R X) (i : ℕ) (f : Handler → Handler) : State A R X := s.put i ((s.handlers i).map f)

def setKind (s : State A R X) (i : ℕ) (k : Option Kind) : State A R X := s.update i fun h => { h with kind := k }

def setStorage (s : State A R X) (i : ℕ) (st : Storage) : State A R X :=
  s.update i fun h => { h with storage := st }

def allocate (s : State A R X) (h : Handler) : State A R X := { s.put s.count (some h) with count := s.count + 1 }

def construct (s : State A R X) (size : ℕ) : State A R X :=
  let kind := Kind.ofSize size
  let (storage,memory) := kind.construct s.memory s.callables
  ({ s with memory := memory, callables := s.callables + 1 }).allocate ⟨storage,some kind⟩

/-- The move constructor in the place of handler `i`; `j` may be the same handler. -/
def constructFrom (s : State A R X) (i j : ℕ) : State A R X :=
  let kind := (s.handlers j).bind Handler.kind
  let s := (s.setKind j none).setKind i kind
  match kind,s.handlers j with
  | some k,some other =>
    let (storage,source,memory) := k.moveConstruct other.storage s.memory
    (({ s with memory := memory }).setStorage j source).setStorage i storage
  | _,_ => s

/-- The destructor, which leaves the kind as it is. -/
def destruct (s : State A R X) (i : ℕ) (h : Handler) : State A R X :=
  match h.kind with
  | some k =>
    let (storage,memory) := k.destroy h.storage s.memory
    ({ s with memory := memory }).setStorage i storage
  | none => s

/-- Storage is built over; the object that a handler with a value has there is logged. -/
def overwrite (s : State A R X) (i : ℕ) : State A R X :=
  match (s.handlers i).bind Handler.target with
  | some n => { s with memory := s.memory.touch (.overwrote n) }
  | none => s

/-- `operator=`: the destructor, and the move constructor in the same place. -/
def moveAssign (s : State A R X) (i j : ℕ) (h : Handler) : State A R X :=
  ((s.destruct i h).overwrite i).constructFrom i j

def invoke (s : State A R X) (i : ℕ) (h : Handler) (args : A) : State A R X :=
  let s := s.setKind i none
  match h.kind with
  | none => s.observe (.badFunctionCall i)
  | some k =>
    let (callable,storage,memory) := k.invoke h.storage s.memory
    let s := ({ s with memory := memory, frames := callable :: s.frames }).setStorage i storage
    s.observe (.ran callable args)

def finish (s : State A R X) (outcome : Option ℕ → Observation A R X) : Option (State A R X) :=
  match s.frames with
  | callable :: frames => some (({ s with frames := frames } : State A R X).observe (outcome callable))
  | [] => none

end State

variable {A R X : Type*}

def step (s : State A R X) : Action A R X → Option (State A R X)
  | .default => some (s.allocate Handler.empty)
  | .construct size => some (s.construct size)
  | .moveConstruct j => (s.handlers j).map fun _ => (s.allocate Handler.empty).constructFrom s.count j
  | .moveAssign i j =>
    match s.handlers i,s.handlers j with
    | some h,some _ => some (s.moveAssign i j h)
    | _,_ => none
  | .invoke i args => (s.handlers i).map fun h => s.invoke i h args
  | .hasValue i => (s.handlers i).map fun h => s.observe (.hasValue i h.hasValue)
  | .destroy i => (s.handlers i).map fun h => (s.destruct i h).put i none
  | .returned r => s.finish fun callable => .returned callable r
  | .threw x => s.finish fun callable => .threw callable x

def machine : Machine (State A R X) (Action A R X) := ⟨fun s => s = State.init,step⟩

end PolyHandler
end BeastWebsocketEcho
