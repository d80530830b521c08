import BeastWebsocketEcho.Machine
import BeastWebsocketEcho.Callbacks

/-!
# The stop register

`stop_register` and its tokens. A token object is known by its place, which is empty once the
object was destroyed; callbacks are known by the number of the `add` that passed them. The
machine has one register and any number of tokens; a callback that `notify_all` runs may do
with them whatever the code outside may do.
-/

namespace BeastWebsocketEcho

structure StopRegister (F : Type*) where
  nextId : UInt64
  map : List (UInt64 × F)

/-- `stop_token`; `registered` says that `register_` is not null. -/
structure StopToken where
  id : UInt64
  registered : Bool
  deriving DecidableEq

namespace StopRegister

variable {F : Type*}

def empty : StopRegister F := ⟨0,[]⟩

def add (r : StopRegister F) (f : F) : StopToken × StopRegister F :=
  let id := r.nextId + 1
  (⟨id,true⟩,⟨id,emplace r.map id f⟩)

def remove (r : StopRegister F) (id : UInt64) : StopRegister F := { r with map := eraseKey r.map id }

/-- `notify_all`, up to the loop: the callbacks to be run, and the register without them. -/
def takeAll (r : StopRegister F) : List F × StopRegister F := (r.map.map Prod.snd,{ r with map := [] })

end StopRegister

namespace StopToken

def null : StopToken := ⟨0,false⟩

/-- What is left of a token that was moved from or reset. -/
def emptied (t : StopToken) : StopToken := { t with id := 0 }

/-- The id under which a token holds a registration. -/
def held (t : StopToken) : Option UInt64 := if t.id = 0 then none else some t.id

end StopToken

namespace StopTokens

/-- The calls of `notify_all` are numbered. The beginning of one is logged with the ids that live
tokens hold then and the callbacks it takes out, the end of a registration with its id and what was
removed. -/
inductive Event
  | added (id : UInt64) (callback : ℕ)
  | dropped (id : UInt64) (removed : List ℕ)
  | nullRegister
  | notifyBegan (number : ℕ) (held : List UInt64) (taken : List ℕ)
  | notifyEnded (number : ℕ)
  | invoked (number callback : ℕ)
  deriving DecidableEq

structure State where
  register : StopRegister ℕ
  adds : ℕ
  notifies : ℕ
  tokens : List (Option StopToken)
  frames : List (Frame ℕ ℕ)
  log : List Event

namespace State

def init : State := ⟨StopRegister.empty,0,0,[],[],[]⟩

def emit (s : State) (e : Event) : State := { s with log := s.log ++ [e] }

def token (s : State) (i : ℕ) : Option StopToken := (s.tokens[i]?).join

def setToken (s : State) (i : ℕ) (t : Option StopToken) : State := { s with tokens := s.tokens.set i t }

def newToken (s : State) (t : StopToken) : State := { s with tokens := s.tokens ++ [some t] }

def held (s : State) : List UInt64 := s.tokens.filterMap fun t => t.bind StopToken.held

def drop (s : State) (t : StopToken) : State :=
  if t.id = 0 then s
  else if t.registered then
    { s with register := s.register.remove t.id }.emit (.dropped t.id (filed s.register.map t.id))
  else s.emit .nullRegister

def add (s : State) : State :=
  let added := s.register.add s.adds
  ({ s with register := added.2, adds := s.adds + 1 }.emit (.added added.1.id s.adds)).newToken added.1

def moveConstruct (s : State) (i : ℕ) : Option State :=
  (s.token i).map fun t => (s.setToken i (some t.emptied)).newToken t

/-- `operator=`: the source is moved to a temporary, which is swapped with the target and destroyed. -/
def moveAssign (s : State) (i j : ℕ) : Option State :=
  (s.token j).bind fun tmp =>
    let s := s.setToken j (some tmp.emptied)
    (s.token i).map fun old => (s.setToken i (some tmp)).drop old

def swap (s : State) (i j : ℕ) : Option State :=
  (s.token i).bind fun t => (s.token j).map fun u => (s.setToken i (some u)).setToken j (some t)

def reset (s : State) (i : ℕ) : Option State :=
  (s.token i).map fun t => (s.setToken i (some t.emptied)).drop t

def destroy (s : State) (i : ℕ) : Option State := (s.token i).map fun t => (s.setToken i none).drop t

def notifyAll (s : State) : State :=
  let taken := s.register.takeAll
  { s with
    register := taken.2
    notifies := s.notifies + 1
    frames := .batch s.notifies taken.1 :: s.frames }.emit (.notifyBegan s.notifies s.held taken.1)

end State

inductive Action
  | null
  | add
  | moveConstruct (i : ℕ)
  | moveAssign (i j : ℕ)
  | swap (i j : ℕ)
  | reset (i : ℕ)
  | destroy (i : ℕ)
  | notifyAll
  | runCallback (i : ℕ)
  | loopEnds
  | callbackReturns

/-- What the code that runs may do, outside as well as in a callback. -/
def operate (s : State) : Action → Option State
  | .null => some (s.newToken StopToken.null)
  | .add => some s.add
  | .moveConstruct i => s.moveConstruct i
  | .moveAssign i j => s.moveAssign i j
  | .swap i j => s.swap i j
  | .reset i => s.reset i
  | .destroy i => s.destroy i
  | .notifyAll => some s.notifyAll
  | _ => none

def step (s : State) : Action → Option State
  | .runCallback i =>
    match s.frames with
    | .batch number _ :: _ =>
      (takeNext s.frames i).map fun x => { s with frames := .call number :: x.2 }.emit (.invoked number x.1)
    | _ => none
  | .loopEnds =>
    match s.frames with
    | .batch number [] :: frames => some ({ s with frames := frames }.emit (.notifyEnded number))
    | _ => none
  | .callbackReturns =>
    match s.frames with
    | .call _ :: frames => some { s with frames := frames }
    | _ => none
  | a => if free s.frames then operate s a else none

def machine : Machine State Action where
  start s := s = State.init
  step := step

end StopTokens
end BeastWebsocketEcho
