import BeastWebsocketEcho.Callbacks
import BeastWebsocketEcho.Net
import BeastWebsocketEcho.Operation

/-!
# Timers that are waited on

The waits on a timer are numbered in the order in which they were started. A wait ends when the
timer expires or is cancelled, and its completion stays queued until the handler runs. A
cancellation does not reach a wait that has expired already: such a wait is still alive, and
its handler will be told of a success.
-/

namespace BeastWebsocketEcho

structure Timer where
  started : ℕ
  waits : List (ℕ × Status ErrorCode)
  deriving DecidableEq

namespace Timer

def idle : Timer := ⟨0,[]⟩

def asyncWait (t : Timer) : Timer := ⟨t.started + 1,t.waits ++ [(t.started,.pending)]⟩

/-- `cancel`; a new expiry does the same to the waits. -/
def cancel (t : Timer) : Timer := { t with waits := t.waits.map fun w => (w.1,w.2.cancel) }

/-- How a wait that is not over ends. -/
def ending : Status ErrorCode → Option ErrorCode
  | .pending => some none
  | .cancelled => some (some .operationAborted)
  | .done _ => none

def complete (t : Timer) (i : ℕ) : Option Timer :=
  (t.waits[i]?).bind fun w => (ending w.2).map fun ec => { t with waits := t.waits.set i (w.1,.done ec) }

/-- The queued completion at place `i` is taken, to be given to its handler. -/
def take (t : Timer) (i : ℕ) : Option (ErrorCode × Timer) :=
  match t.waits[i]? with
  | some (_,.done ec) => some (ec,{ t with waits := t.waits.eraseIdx i })
  | _ => none

def numbers (t : Timer) : List ℕ := t.waits.map Prod.fst

def expired? : ℕ × Status ErrorCode → Option ℕ
  | (n,.done none) => some n
  | _ => none

def live? : ℕ × Status ErrorCode → Option ℕ
  | (n,.pending) => some n
  | (n,.done none) => some n
  | _ => none

def expired (t : Timer) : List ℕ := t.waits.filterMap expired?

/-- The waits whose handler may still be told of a success. -/
def live (t : Timer) : List ℕ := t.waits.filterMap live?

variable {t u : Timer} {i : ℕ} {ec : ErrorCode}

@[simp] theorem numbers_asyncWait (t : Timer) : t.asyncWait.numbers = t.numbers ++ [t.started] := by
  simp [numbers,asyncWait]

@[simp] theorem numbers_cancel (t : Timer) : t.cancel.numbers = t.numbers := by simp [numbers,cancel]

@[simp] theorem started_cancel (t : Timer) : t.cancel.started = t.started := rfl

@[simp] theorem numbers_idle : idle.numbers = [] := rfl

/-- Where no wait is outstanding or queued, none is alive. -/
theorem live_of_numbers_nil (h : t.numbers = []) : t.live = [] := by
  have hnil : t.waits = [] := List.map_eq_nil_iff.mp h
  simp [live,hnil]

theorem expired_of_numbers_nil (h : t.numbers = []) : t.expired = [] := by
  have hnil : t.waits = [] := List.map_eq_nil_iff.mp h
  simp [expired,hnil]

/-- The handler of the only wait is taken. -/
theorem numbers_erase_single {m n : ℕ} (h : t.numbers = [m]) (hn : t.numbers[i]? = some n) :
    t.numbers.eraseIdx i = [] := by
  rw [h] at hn
  rw [h]
  cases i with
  | zero => rfl
  | succ i => simp at hn

@[simp] theorem live_asyncWait (t : Timer) : t.asyncWait.live = t.live ++ [t.started] := by
  simp [live,asyncWait,live?]

@[simp] theorem expired_asyncWait (t : Timer) : t.asyncWait.expired = t.expired := by
  simp [expired,asyncWait,expired?]

theorem live?_cancel (w : ℕ × Status ErrorCode) : live? (w.1,w.2.cancel) = expired? w := by
  obtain ⟨n,st⟩ := w
  cases st with
  | done ec => cases ec <;> rfl
  | _ => rfl

theorem expired?_cancel (w : ℕ × Status ErrorCode) : expired? (w.1,w.2.cancel) = expired? w := by
  obtain ⟨n,st⟩ := w
  cases st with
  | done ec => cases ec <;> rfl
  | _ => rfl

/-- A cancellation leaves alive what has expired. -/
@[simp] theorem live_cancel (t : Timer) : t.cancel.live = t.expired := by
  simp only [live,cancel,expired,List.filterMap_map]
  congr 1
  funext w
  exact live?_cancel w

@[simp] theorem expired_cancel (t : Timer) : t.cancel.expired = t.expired := by
  simp only [cancel,expired,List.filterMap_map]
  congr 1
  funext w
  exact expired?_cancel w

theorem complete_cases (h : t.complete i = some u) :
    ∃ n st ec, t.waits[i]? = some (n,st) ∧ ending st = some ec ∧
      u = { t with waits := t.waits.set i (n,.done ec) } := by
  obtain ⟨⟨n,st⟩,hw,hrest⟩ := Option.bind_eq_some_iff.mp h
  obtain ⟨ec,hec,rfl⟩ := Option.map_eq_some_iff.mp hrest
  exact ⟨n,st,ec,hw,hec,rfl⟩

theorem take_cases (h : t.take i = some (ec,u)) :
    ∃ n, t.waits[i]? = some (n,.done ec) ∧ u = { t with waits := t.waits.eraseIdx i } := by
  unfold take at h
  split at h
  · next n ec' hw =>
    simp only [Option.some.injEq,Prod.mk.injEq] at h
    obtain ⟨rfl,rfl⟩ := h
    exact ⟨n,hw,rfl⟩
  · cases h

theorem numbers_complete (h : t.complete i = some u) : u.numbers = t.numbers := by
  obtain ⟨n,st,ec,hw,-,rfl⟩ := complete_cases h
  have hsame := filterMap_set_same (f := fun w : ℕ × Status ErrorCode => some w.1) (y := (n,.done ec)) hw rfl
  simpa [numbers] using hsame

theorem started_complete (h : t.complete i = some u) : u.started = t.started := by
  obtain ⟨n,st,ec,-,-,rfl⟩ := complete_cases h
  rfl

/-- A wait is as alive when it has ended as it was before. -/
theorem live_complete (h : t.complete i = some u) : u.live = t.live := by
  obtain ⟨n,st,ec,hw,hec,rfl⟩ := complete_cases h
  refine filterMap_set_same hw ?_
  cases st with
  | done r => cases hec
  | _ =>
    obtain rfl := Option.some.inj hec
    rfl

theorem numbers_take (h : t.take i = some (ec,u)) : ∃ n, t.numbers[i]? = some n ∧ u.numbers = t.numbers.eraseIdx i := by
  obtain ⟨n,hw,rfl⟩ := take_cases h
  exact ⟨n,by simp [numbers,hw],by simp [numbers,List.eraseIdx_map]⟩

/-- A handler that is told of a success is that of a wait that had expired. -/
theorem live_take_none (h : t.take i = some (none,u)) :
    ∃ n ∈ t.expired, t.live.Perm (n :: u.live) ∧ t.expired.Perm (n :: u.expired) := by
  obtain ⟨n,hw,rfl⟩ := take_cases h
  have hmem : (n,.done none) ∈ t.waits := List.mem_of_getElem? hw
  refine ⟨n,List.mem_filterMap.mpr ⟨_,hmem,rfl⟩,?_,?_⟩
  · simpa [live,live?] using filterMap_perm live? hw
  · simpa [expired,expired?] using filterMap_perm expired? hw

/-- The handler of a wait that has expired can run. -/
theorem exists_take (h : t.expired ≠ []) : ∃ i u, t.take i = some (none,u) := by
  obtain ⟨n,hn⟩ := List.exists_mem_of_ne_nil _ h
  obtain ⟨⟨m,st⟩,hw,hm⟩ := List.mem_filterMap.mp hn
  obtain ⟨i,hi,hget⟩ := List.getElem_of_mem hw
  match st,hm with
  | .done none,_ =>
    refine ⟨i,{ t with waits := t.waits.eraseIdx i },?_⟩
    simp [take,List.getElem?_eq_getElem hi,hget]

/-- A handler that is told of a failure is that of a wait that was dead. -/
theorem live_take_some {e : Error} (h : t.take i = some (some e,u)) :
    t.live.Perm u.live ∧ t.expired.Perm u.expired := by
  obtain ⟨n,hw,rfl⟩ := take_cases h
  constructor
  · simpa [live,live?] using filterMap_perm live? hw
  · simpa [expired,expired?] using filterMap_perm expired? hw

end Timer
end BeastWebsocketEcho
