import Mathlib.Data.List.Basic
import Mathlib.Tactic

/-!
# First-in first-out ledgers

The account of a queue over its whole life: what entered, what left and with which
tag, and what still waits. The balance is a field, so a ledger in which an entry is
lost, duplicated or overtaken cannot be built.
-/

namespace BeastWebsocketEcho

structure Ledger (V T : Type*) where
  entered : List V
  left : List (V × T)
  waiting : List V
  balance : entered = left.map Prod.fst ++ waiting

namespace Ledger

variable {V T : Type*}

def empty : Ledger V T := ⟨[],[],[],rfl⟩

def enter (l : Ledger V T) (v : V) : Ledger V T :=
  ⟨l.entered ++ [v],l.left,l.waiting ++ [v],by rw [l.balance,List.append_assoc]⟩

/-- The oldest waiting entry leaves. -/
def leave (l : Ledger V T) (v : V) (rest : List V) (tag : T) (h : l.waiting = v :: rest) :
    Ledger V T :=
  ⟨l.entered,l.left ++ [(v,tag)],rest,by rw [l.balance,h]; simp⟩

/-- The oldest waiting entry, and the ledger after it has left. -/
def next (l : Ledger V T) (tag : T) : Option (V × Ledger V T) :=
  match h : l.waiting with
  | [] => none
  | v :: rest => some (v,l.leave v rest tag h)

theorem next_cases {l l' : Ledger V T} {tag : T} {v : V} (h : l.next tag = some (v,l')) :
    l'.entered = l.entered ∧ l'.left = l.left ++ [(v,tag)] ∧ l.waiting = v :: l'.waiting := by
  unfold next at h
  split at h
  · cases h
  · next v' rest hwaiting =>
    simp only [Option.some.injEq,Prod.mk.injEq] at h
    obtain ⟨rfl,rfl⟩ := h
    exact ⟨rfl,rfl,hwaiting⟩

theorem left_prefix (l : Ledger V T) : l.left.map Prod.fst <+: l.entered :=
  ⟨l.waiting,l.balance.symm⟩

/-- Where nothing waits, everything that entered has left. -/
theorem left_length_of_waiting_nil (l : Ledger V T) (h : l.waiting = []) :
    l.left.length = l.entered.length := by
  have hbal := congrArg List.length l.balance
  simpa [h] using hbal.symm

/-- As long as the tag `p` is never given after another one, what left with it is a
prefix of what entered. -/
theorem filter_prefix (l : Ledger V T) (p : T → Bool) (kept lost : List (V × T))
    (hleft : l.left = kept ++ lost) (hkept : ∀ x ∈ kept, p x.2 = true)
    (hlost : ∀ x ∈ lost, p x.2 = false) :
    (l.left.filter fun x => p x.2).map Prod.fst <+: l.entered := by
  have hfilter : (l.left.filter fun x => p x.2) = kept := by
    rw [hleft,List.filter_append,List.filter_eq_self.mpr hkept,
      List.filter_eq_nil_iff.mpr (fun x hx => by simp [hlost x hx]),List.append_nil]
  refine List.IsPrefix.trans ?_ l.left_prefix
  rw [hfilter,hleft,List.map_append]
  exact List.prefix_append _ _

end Ledger
end BeastWebsocketEcho
