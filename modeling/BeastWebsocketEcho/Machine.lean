import Mathlib.Data.List.Basic
import Mathlib.Tactic

/-!
# Guarded machines and their runs

A machine is a partial step function: `step s a = some t` when the action `a` is
enabled in `s`. `Exec` is a run with its list of actions, `Reachable` the states
that runs from a start state lead to. `restrict` keeps only the steps whose state
and action meet a condition, so that a run of `m.restrict ok` is a run of `m` all
of whose steps meet it. Where every step takes from a stock, runs end. The last section is
about systems with a list of components, each of which is described by a parameter and
keeps a relation to it.
-/

namespace BeastWebsocketEcho

structure Machine (S A : Type*) where
  start : S → Prop
  step : S → A → Option S

namespace Machine

variable {S A T B : Type*} {m : Machine S A} {n : Machine T B}

inductive Exec (m : Machine S A) : S → List A → S → Prop
  | refl (s) : Exec m s [] s
  | succ {s t u a as} : m.step s a = some t → Exec m t as u → Exec m s (a :: as) u

namespace Exec

theorem trans {s t u : S} {as bs : List A} (hst : Exec m s as t) (htu : Exec m t bs u) :
    Exec m s (as ++ bs) u := by
  induction hst with
  | refl => exact htu
  | succ hstep _ ih => exact Exec.succ hstep (ih htu)

theorem single {s t : S} {a : A} (h : m.step s a = some t) : Exec m s [a] t :=
  Exec.succ h (Exec.refl t)

/-- What one step preserves, a run preserves. -/
theorem invariant {I : S → Prop} (hstep : ∀ s a t, I s → m.step s a = some t → I t)
    {s t : S} {as : List A} (h : Exec m s as t) (hs : I s) : I t := by
  induction h with
  | refl => exact hs
  | succ ha _ ih => exact ih (hstep _ _ _ hs ha)

/-- A projection that turns every step into a run of another machine turns runs into runs. -/
theorem project {f : S → T} (hstep : ∀ s a t, m.step s a = some t → ∃ bs, Exec n (f s) bs (f t))
    {s t : S} {as : List A} (h : Exec m s as t) : ∃ bs, Exec n (f s) bs (f t) := by
  induction h with
  | refl => exact ⟨[], Exec.refl _⟩
  | succ ha _ ih =>
    obtain ⟨bs, hb⟩ := hstep _ _ _ ha
    obtain ⟨cs, hc⟩ := ih
    exact ⟨bs ++ cs, hb.trans hc⟩

end Exec

/-- Replay a list of actions; `none` if one of them is not enabled on the way. -/
def replay (m : Machine S A) : S → List A → Option S
  | s, [] => some s
  | s, a :: as => (m.step s a).bind fun t => m.replay t as

theorem Exec.of_replay {s t : S} {as : List A} (h : m.replay s as = some t) : Exec m s as t := by
  induction as generalizing s with
  | nil => simp only [replay, Option.some.injEq] at h; subst h; exact Exec.refl _
  | cons a as ih =>
    obtain ⟨u, hu, ht⟩ := Option.bind_eq_some_iff.mp h
    exact Exec.succ hu (ih ht)

/-- Two machines that take the same actions in step, under an abstraction of the first one's states. -/
theorem replay_map {n : Machine T A} {f : S → T} {I : S → Prop} {ok : A → Prop}
    (hmap : ∀ s a, I s → ok a → (m.step s a).map f = n.step (f s) a)
    (hinv : ∀ s a t, I s → ok a → m.step s a = some t → I t) {s : S} (hs : I s) {as : List A}
    (hok : ∀ a ∈ as, ok a) : (m.replay s as).map f = n.replay (f s) as := by
  induction as generalizing s with
  | nil => rfl
  | cons a as ih =>
    have ha := hok a List.mem_cons_self
    have hrest : ∀ b ∈ as, ok b := fun b hb => hok b (List.mem_cons_of_mem _ hb)
    simp only [replay]
    rw [← hmap s a hs ha]
    cases hstep : m.step s a with
    | none => rfl
    | some t => simpa using ih (hinv s a t hs ha hstep) hrest

def Reachable (m : Machine S A) (s : S) : Prop := ∃ s₀ as, m.start s₀ ∧ Exec m s₀ as s

namespace Reachable

theorem init {s : S} (h : m.start s) : m.Reachable s := ⟨s, [], h, Exec.refl s⟩

theorem exec {s t : S} {as : List A} (hs : m.Reachable s) (h : Exec m s as t) : m.Reachable t := by
  obtain ⟨s₀, bs, h₀, hb⟩ := hs
  exact ⟨s₀, bs ++ as, h₀, hb.trans h⟩

theorem step {s t : S} {a : A} (hs : m.Reachable s) (h : m.step s a = some t) : m.Reachable t :=
  hs.exec (Exec.single h)

theorem of_replay {s₀ s : S} {as : List A} (h₀ : m.start s₀) (h : m.replay s₀ as = some s) :
    m.Reachable s := ⟨s₀, as, h₀, Exec.of_replay h⟩

theorem invariant {I : S → Prop} (hstart : ∀ s, m.start s → I s)
    (hstep : ∀ s a t, I s → m.step s a = some t → I t) {s : S} (h : m.Reachable s) : I s := by
  obtain ⟨s₀, as, h₀, hexec⟩ := h
  exact hexec.invariant hstep (hstart s₀ h₀)

/-- The invariant rule whose step case may use that the state before the step is reachable. -/
theorem invariant_reachable {I : S → Prop} (hstart : ∀ s, m.start s → I s)
    (hstep : ∀ s a t, m.Reachable s → I s → m.step s a = some t → I t) {s : S}
    (h : m.Reachable s) : I s := by
  have both : m.Reachable s ∧ I s :=
    h.invariant (I := fun s => m.Reachable s ∧ I s) (fun s h₀ => ⟨init h₀, hstart s h₀⟩)
      (fun s a t hs ha => ⟨hs.1.step ha, hstep s a t hs.1 hs.2 ha⟩)
  exact both.2

theorem project {f : S → T} (hstart : ∀ s, m.start s → n.Reachable (f s))
    (hstep : ∀ s a t, m.step s a = some t → ∃ bs, Exec n (f s) bs (f t)) {s : S}
    (h : m.Reachable s) : n.Reachable (f s) := by
  obtain ⟨s₀, as, h₀, hexec⟩ := h
  obtain ⟨bs, hb⟩ := hexec.project hstep
  exact (hstart s₀ h₀).exec hb

end Reachable

/-- The machine that takes only the steps of `m` that meet `ok`. -/
def restrict (m : Machine S A) (ok : S → A → Bool) : Machine S A where
  start := m.start
  step s a := if ok s a then m.step s a else none

variable {ok : S → A → Bool}

theorem restrict_step_iff {s t : S} {a : A} :
    (m.restrict ok).step s a = some t ↔ ok s a = true ∧ m.step s a = some t := by
  simp [restrict]

theorem Reachable.of_restrict {s : S} (h : (m.restrict ok).Reachable s) : m.Reachable s := by
  refine Reachable.invariant (m := m.restrict ok) (I := m.Reachable) (fun _ h₀ => Reachable.init h₀) ?_ h
  intro s a t hs ha
  exact hs.step (restrict_step_iff.mp ha).2

/-- A property that a step leaves behind exactly if it held before and the step meets the condition: it holds
behind those runs whose steps all meet it. -/
theorem Exec.restrict_iff {I P : S → Prop} (hinv : ∀ s a t, I s → m.step s a = some t → I t)
    (hstep : ∀ s a t, I s → m.step s a = some t → (P t ↔ P s ∧ ok s a = true)) {s t : S} {as : List A}
    (h : Exec m s as t) (hI : I s) : P t ↔ P s ∧ Exec (m.restrict ok) s as t := by
  induction h with
  | refl => exact (and_iff_left (Exec.refl _)).symm
  | succ ha _ ih =>
    rw [ih (hinv _ _ _ hI ha),hstep _ _ _ hI ha]
    constructor
    · rintro ⟨⟨hP,hok⟩,htail⟩
      exact ⟨hP,Exec.succ (restrict_step_iff.mpr ⟨hok,ha⟩) htail⟩
    · rintro ⟨hP,_ | ⟨hfirst,htail⟩⟩
      obtain ⟨hok,hsame⟩ := restrict_step_iff.mp hfirst
      obtain rfl := Option.some.inj (ha.symm.trans hsame)
      exact ⟨⟨hP,hok⟩,htail⟩

/-- Every step of the run that `as` lists meets `Q`. -/
def Along (m : Machine S A) (Q : S → A → S → Prop) : S → List A → Prop
  | _, [] => True
  | s, a :: as => ∀ t, m.step s a = some t → Q s a t ∧ m.Along Q t as

/-- A property that a step has exactly if it meets the condition: all steps of a run have it exactly if it is a run
of the restricted machine. What the steps that meet the condition keep may be used. -/
theorem Exec.along_iff_of_kept {I : S → Prop} {Q : S → A → S → Prop}
    (hinv : ∀ s a t, I s → m.step s a = some t → ok s a = true → I t)
    (hstep : ∀ s a t, I s → m.step s a = some t → (Q s a t ↔ ok s a = true)) {s t : S} {as : List A}
    (h : Exec m s as t) (hI : I s) : m.Along Q s as ↔ Exec (m.restrict ok) s as t := by
  induction h with
  | refl => exact iff_of_true trivial (Exec.refl _)
  | succ ha _ ih =>
    constructor
    · intro halong
      obtain ⟨hQ,htail⟩ := halong _ ha
      have hok := (hstep _ _ _ hI ha).mp hQ
      exact Exec.succ (restrict_step_iff.mpr ⟨hok,ha⟩) ((ih (hinv _ _ _ hI ha hok)).mp htail)
    · rintro (_ | ⟨hfirst,htail⟩) u hu
      obtain ⟨hok,hsame⟩ := restrict_step_iff.mp hfirst
      obtain rfl := Option.some.inj (ha.symm.trans hsame)
      obtain rfl := Option.some.inj (ha.symm.trans hu)
      exact ⟨(hstep _ _ _ hI ha).mpr hok,(ih (hinv _ _ _ hI ha hok)).mpr htail⟩

theorem Exec.along_iff {I : S → Prop} {Q : S → A → S → Prop} (hinv : ∀ s a t, I s → m.step s a = some t → I t)
    (hstep : ∀ s a t, I s → m.step s a = some t → (Q s a t ↔ ok s a = true)) {s t : S} {as : List A}
    (h : Exec m s as t) (hI : I s) : m.Along Q s as ↔ Exec (m.restrict ok) s as t :=
  h.along_iff_of_kept (fun s a t hs ha _ => hinv s a t hs ha) hstep hI

/-- What the steps of the run that `as` lists contribute, one after the other. -/
def collect {X : Type*} (m : Machine S A) (f : S → A → List X) : S → List A → List X
  | _, [] => []
  | s, a :: as => f s a ++ ((m.step s a).elim [] fun t => m.collect f t as)

/-- A log to which every step adds its contribution holds, at the end of a run, what the run contributes. -/
theorem Exec.collect_eq {X : Type*} {f : S → A → List X} {g : S → List X} {I : S → Prop}
    (hinv : ∀ s a t, I s → m.step s a = some t → I t)
    (hstep : ∀ s a t, I s → m.step s a = some t → g t = g s ++ f s a) {s t : S} {as : List A} (h : Exec m s as t)
    (hI : I s) : g t = g s ++ m.collect f s as := by
  induction h with
  | refl => simp [collect]
  | succ ha _ ih =>
    rw [ih (hinv _ _ _ hI ha),hstep _ _ _ hI ha]
    simp [collect,ha]

section Exhaustion

variable {load : S → ℕ}

/-- Where every step takes from a stock, a run is no longer than the stock is large. -/
theorem Exec.length_le (hdec : ∀ s a t, m.step s a = some t → load t < load s) {s t : S} {as : List A}
    (h : Exec m s as t) : as.length + load t ≤ load s := by
  induction h with
  | refl => simp
  | succ ha _ ih =>
    have hlt := hdec _ _ _ ha
    simp only [List.length_cons]
    omega

/-- Where every step takes from a stock, some run cannot go on. -/
theorem exists_settled (hdec : ∀ s a t, m.step s a = some t → load t < load s) (s : S) :
    ∃ as t, Exec m s as t ∧ ∀ a, m.step t a = none := by
  induction hload : load s using Nat.strong_induction_on generalizing s with
  | _ n ih =>
    by_cases hsettled : ∀ a, m.step s a = none
    · exact ⟨[],s,Exec.refl s,hsettled⟩
    · push Not at hsettled
      obtain ⟨a,ha⟩ := hsettled
      obtain ⟨u,hu⟩ := Option.ne_none_iff_exists'.mp ha
      obtain ⟨as,t,hexec,hend⟩ := ih (load u) (hload ▸ hdec s a u hu) u rfl
      exact ⟨a :: as,t,Exec.succ hu hexec,hend⟩

end Exhaustion

end Machine

section Components

variable {X C : Type*} {R : X → C → Prop} {xs : List X} {cs : List C}

theorem get_set_cases {i j : ℕ} {c d : C} (h : (cs.set i c)[j]? = some d) :
    (j = i ∧ d = c) ∨ (j ≠ i ∧ cs[j]? = some d) := by
  by_cases hji : j = i
  · subst hji
    obtain ⟨hlt,hget⟩ := List.getElem?_eq_some_iff.mp h
    exact Or.inl ⟨rfl,by simpa using hget.symm⟩
  · rw [List.getElem?_set_ne (Ne.symm hji)] at h
    exact Or.inr ⟨hji,h⟩

/-- A component that changes in a way that keeps its relation, whatever its parameter is. -/
theorem forall₂_set (h : List.Forall₂ R xs cs) {i : ℕ} {c d : C} (hc : cs[i]? = some c)
    (hd : ∀ x, R x c → R x d) : List.Forall₂ R xs (cs.set i d) := by
  induction h generalizing i with
  | nil => exact List.Forall₂.nil
  | cons hx hxs ih =>
    cases i with
    | zero =>
      obtain rfl : _ = c := by simpa using hc
      exact List.Forall₂.cons (hd _ hx) hxs
    | succ i => exact List.Forall₂.cons hx (ih (by simpa using hc))

theorem forall₂_modify (h : List.Forall₂ R xs cs) (i : ℕ) {f : C → C} (hf : ∀ x c, R x c → R x (f c)) :
    List.Forall₂ R xs (cs.modify i f) := by
  induction h generalizing i with
  | nil => simp
  | cons hx hxs ih =>
    cases i with
    | zero => exact List.Forall₂.cons (hf _ _ hx) hxs
    | succ i => exact List.Forall₂.cons hx (ih i)

theorem forall₂_and (h : List.Forall₂ R xs cs) {P : C → Prop} (hP : ∀ c ∈ cs, P c) :
    List.Forall₂ (fun x c => R x c ∧ P c) xs cs := by
  induction h with
  | nil => exact List.Forall₂.nil
  | cons hx hxs ih =>
    have htail := ih fun c hc => hP c (List.mem_cons_of_mem _ hc)
    exact List.Forall₂.cons ⟨hx,hP _ List.mem_cons_self⟩ htail

theorem forall₂_get (h : List.Forall₂ R xs cs) {i : ℕ} {c : C} (hc : cs[i]? = some c) :
    ∃ x, xs[i]? = some x ∧ R x c := by
  induction h generalizing i with
  | nil => simp at hc
  | cons hx hxs ih =>
    cases i with
    | zero => exact ⟨_,rfl,by simpa using (Option.some.inj hc) ▸ hx⟩
    | succ i => simpa using ih (by simpa using hc)

end Components
end BeastWebsocketEcho
