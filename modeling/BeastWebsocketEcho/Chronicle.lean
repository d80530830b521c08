import Mathlib.Data.List.Basic
import Mathlib.Tactic

/-!
# What held when an event was logged

`Chronicle Q log` says that every event of the log satisfied `Q` together with the
events before it. A log only grows at its end, so a chronicle is kept by checking
the new event against the log it is appended to.
-/

namespace BeastWebsocketEcho

variable {E : Type*} {Q R : List E → E → Prop}

def Chronicle (Q : List E → E → Prop) (log : List E) : Prop :=
  ∀ before e after, log = before ++ e :: after → Q before e

namespace Chronicle

@[simp] theorem nil : Chronicle Q ([] : List E) := by
  intro before e after h
  simp at h

/-- An event of an extended log is the new one or was there before. -/
theorem split_snoc {log before after : List E} {e f : E} (h : log ++ [e] = before ++ f :: after) :
    (before = log ∧ f = e ∧ after = []) ∨
      ∃ init, after = init ++ [e] ∧ log = before ++ f :: init := by
  rcases List.eq_nil_or_concat after with rfl | ⟨init,last,rfl⟩
  · obtain ⟨hbefore,hf⟩ := List.append_inj' h rfl
    exact Or.inl ⟨hbefore.symm,by simpa using hf.symm,rfl⟩
  · rw [List.concat_eq_append,← List.cons_append,← List.append_assoc] at h
    obtain ⟨hinit,hlast⟩ := List.append_inj' h rfl
    refine Or.inr ⟨init,?_,hinit⟩
    rw [List.concat_eq_append,show e = last by simpa using hlast]

theorem snoc_iff {log : List E} {e : E} :
    Chronicle Q (log ++ [e]) ↔ Chronicle Q log ∧ Q log e := by
  constructor
  · intro h
    exact ⟨fun before f after hf => h before f (after ++ [e]) (by simp [hf]),h log e [] rfl⟩
  · rintro ⟨hlog,he⟩ before f after hf
    rcases split_snoc hf with ⟨rfl,rfl,-⟩ | ⟨init,-,hinit⟩
    · exact he
    · exact hlog before f init hinit

theorem snoc {log : List E} {e : E} (h : Chronicle Q log) (he : Q log e) :
    Chronicle Q (log ++ [e]) := snoc_iff.mpr ⟨h,he⟩

theorem mono (hQR : ∀ before e, Q before e → R before e) {log : List E} (h : Chronicle Q log) :
    Chronicle R log := fun before e after hlog => hQR before e (h before e after hlog)

end Chronicle

/-- What every new event keeps, a new stretch of events keeps. -/
theorem append_induction {P : List E → Prop} {log : List E} (h : P log) (k : List E)
    (hk : ∀ l, ∀ e ∈ k, P l → P (l ++ [e])) : P (log ++ k) := by
  induction k using List.reverseRecOn with
  | nil => simpa using h
  | append_singleton k e ih =>
    have hinit := ih fun l x hx => hk l x (List.mem_append_left _ hx)
    rw [← List.append_assoc]
    exact hk _ e (by simp) hinit

def Grows (K : E → Prop) (log log' : List E) : Prop := ∃ k, log' = log ++ k ∧ ∀ e ∈ k, K e

namespace Grows

variable {K L : E → Prop} {log log' log'' : List E}

@[refl] theorem refl (log : List E) : Grows K log log := ⟨[],by simp,by simp⟩

theorem trans (h : Grows K log log') (h' : Grows K log' log'') : Grows K log log'' := by
  obtain ⟨k,rfl,hk⟩ := h
  obtain ⟨l,rfl,hl⟩ := h'
  refine ⟨k ++ l,by simp,fun e he => ?_⟩
  rcases List.mem_append.mp he with he | he
  · exact hk e he
  · exact hl e he

theorem snoc {e : E} (h : Grows K log log') (he : K e) : Grows K log (log' ++ [e]) :=
  h.trans ⟨[e],rfl,by simpa using he⟩

theorem mono (hKL : ∀ e, K e → L e) (h : Grows K log log') : Grows L log log' := by
  obtain ⟨k,rfl,hk⟩ := h
  exact ⟨k,rfl,fun e he => hKL e (hk e he)⟩

/-- A chronicle of the grown log is one of the log as it was before. -/
theorem chronicle (h : Grows K log log') (hlog : Chronicle Q log') : Chronicle Q log := by
  obtain ⟨k,rfl,-⟩ := h
  intro before e after hsplit
  exact hlog before e (after ++ k) (by simp [hsplit])

/-- Events that a chronicle does not ask anything of neither keep nor break it. -/
theorem chronicle_iff (h : Grows K log log') (hfree : ∀ before e, K e → Q before e) :
    Chronicle Q log' ↔ Chronicle Q log := by
  refine ⟨h.chronicle,fun hlog => ?_⟩
  obtain ⟨k,rfl,hk⟩ := h
  exact append_induction hlog k fun l e he hl => hl.snoc (hfree l e (hk e he))

end Grows

/-- A log has one place at which an event occurs for the first time. -/
theorem first_split {before after before' after' : List E} {e : E} (h : before ++ e :: after = before' ++ e :: after')
    (he : e ∉ before) (he' : e ∉ before') : before = before' ∧ after = after' := by
  induction before generalizing before' with
  | nil =>
    cases before' with
    | nil => exact ⟨rfl,(List.cons.inj h).2⟩
    | cons y ys => exact absurd (by simp [(List.cons.inj h).1]) he'
  | cons x xs ih =>
    cases before' with
    | nil => exact absurd (by simp [(List.cons.inj h).1]) he
    | cons y ys =>
      obtain ⟨rfl,htail⟩ := List.cons.inj h
      obtain ⟨rfl,hafter⟩ := ih htail (fun hx => he (by simp [hx])) (fun hx => he' (by simp [hx]))
      exact ⟨rfl,hafter⟩

/-- What a reader of single events finds in a log, one event at a time. -/
theorem filterMap_cons_toList {F : Type*} (f : E → Option F) (e : E) (log : List E) :
    (e :: log).filterMap f = (f e).toList ++ log.filterMap f := by
  cases h : f e <;> simp [h]

/-- An entry of a list is the one at the place that is erased, or stays. -/
theorem mem_eraseIdx_or_eq {A : Type*} {l : List A} {i : ℕ} {x y : A} (hx : x ∈ l) (hy : l[i]? = some y) :
    x = y ∨ x ∈ l.eraseIdx i := by
  obtain ⟨hi,rfl⟩ := List.getElem?_eq_some_iff.mp hy
  simpa using (List.getElem_cons_eraseIdx_perm hi).mem_iff.mpr hx

/-- An entry that is replaced by one that reads the same. -/
theorem filterMap_set_same {A F : Type*} {f : A → Option F} {l : List A} {i : ℕ} {x y : A} (hx : l[i]? = some x)
    (hf : f y = f x) : (l.set i y).filterMap f = l.filterMap f := by
  induction l generalizing i with
  | nil => simp at hx
  | cons a l ih =>
    cases i with
    | zero =>
      obtain rfl : a = x := by simpa using hx
      simp [List.filterMap_cons,hf]
    | succ i => simp [List.filterMap_cons,ih (i := i) (by simpa using hx)]

end BeastWebsocketEcho
