import Mathlib.Data.List.Basic
import Mathlib.Tactic

/-!
# The life of an asynchronous operation

An operation that was started is pending until it completes; the completion, with its
result, stays queued until the handler runs. Cancelling a pending operation makes it end
with a failure, and leaves a queued completion as it is.
-/

namespace BeastWebsocketEcho

inductive Status (R : Type*)
  | pending | cancelled | done (result : R)
  deriving DecidableEq, Repr

namespace Status

variable {R : Type*}

def cancel : Status R → Status R
  | .pending => .cancelled
  | s => s

/-- The operation completes with result `r`; a cancelled one can only fail. -/
def complete (failed : R → Bool) (r : R) : Status R → Option (Status R)
  | .pending => some (.done r)
  | .cancelled => if failed r then some (.done r) else none
  | .done _ => none

theorem complete_cases {failed : R → Bool} {r : R} {s t : Status R} (h : s.complete failed r = some t) :
    t = .done r ∧ (s = .pending ∨ s = .cancelled ∧ failed r = true) := by
  cases s with
  | pending => exact ⟨by simpa [complete,eq_comm] using h,Or.inl rfl⟩
  | cancelled =>
    by_cases hf : failed r = true
    · exact ⟨by simpa [complete,hf,eq_comm] using h,Or.inr ⟨rfl,hf⟩⟩
    · simp [complete,hf] at h
  | done q => simp [complete] at h

end Status

section Operations

variable {R : Type*} {failed : R → Bool} {r : R} {ops ops' : List (Status R)} {i : ℕ}

/-- The operation at place `i` of those in flight completes. -/
def completeAt (failed : R → Bool) (r : R) (ops : List (Status R)) (i : ℕ) : Option (List (Status R)) :=
  ((ops[i]?).bind (Status.complete failed r)).map (ops.set i)

/-- The queued completion at place `i` is taken, to be given to its handler. -/
def takeAt (ops : List (Status R)) (i : ℕ) : Option (R × List (Status R)) :=
  match ops[i]? with
  | some (.done r) => some (r,ops.eraseIdx i)
  | _ => none

theorem length_completeAt (h : completeAt failed r ops i = some ops') : ops'.length = ops.length := by
  obtain ⟨st,-,rfl⟩ := Option.map_eq_some_iff.mp h
  simp

theorem takeAt_cases (h : takeAt ops i = some (r,ops')) : ops[i]? = some (.done r) ∧ ops' = ops.eraseIdx i := by
  unfold takeAt at h
  split at h
  · next hget =>
    simp only [Option.some.injEq,Prod.mk.injEq] at h
    obtain ⟨rfl,rfl⟩ := h
    exact ⟨hget,rfl⟩
  · cases h

end Operations
end BeastWebsocketEcho
