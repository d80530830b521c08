import Mathlib.Data.List.Infix
import Mathlib.Tactic

/-!
# Looking for a pattern in a list

`find p w` is the first place at which the pattern `p` stands in `w`. What is found in the
beginning of a list is what is found in the list, if it fits; what has nothing in common with a
separator stands on one side of it.
-/

namespace BeastWebsocketEcho

variable {A : Type*}

section Find

variable [DecidableEq A]

def find (p : List A) : List A → Option ℕ
  | [] => if p = [] then some 0 else none
  | x :: xs => if p <+: x :: xs then some 0 else (find p xs).map (· + 1)

variable {p w u v : List A} {i : ℕ}

theorem find_eq_some_iff : find p w = some i ↔ p <+: w.drop i ∧ i ≤ w.length ∧ ∀ j < i, ¬ p <+: w.drop j := by
  induction w generalizing i with
  | nil =>
    by_cases hp : p = []
    · cases i <;> simp [find,hp]
    · simp [find,hp]
  | cons x xs ih =>
    by_cases hhere : p <+: x :: xs
    · cases i with
      | zero => simp [find,hhere]
      | succ i =>
        simp only [find,hhere,if_true,Option.some.injEq,reduceCtorEq,false_iff]
        rintro ⟨-,-,hfirst⟩
        exact hfirst 0 (by omega) hhere
    · cases i with
      | zero => simp [find,hhere]
      | succ i =>
        simp only [find,hhere,if_false,Option.map_eq_some_iff,Nat.add_right_cancel_iff,exists_eq_right,ih,
          List.drop_succ_cons,List.length_cons,Nat.add_le_add_iff_right]
        refine and_congr_right fun _ => and_congr_right fun _ => ?_
        constructor
        · intro hfirst j hj
          cases j with
          | zero => exact hhere
          | succ j => exact hfirst j (by omega)
        · intro hfirst j hj
          exact hfirst (j + 1) (by omega)

theorem find_eq_none_iff : find p w = none ↔ ¬ p <:+: w := by
  induction w with
  | nil => simp [find]
  | cons x xs ih =>
    by_cases hhere : p <+: x :: xs
    · simp [find,hhere,hhere.isInfix]
    · simp [find,hhere,ih,List.infix_cons_iff]

theorem find_split (h : find p w = some i) : ∃ y, w = w.take i ++ p ++ y ∧ (w.take i).length = i := by
  obtain ⟨⟨y,hy⟩,hi,-⟩ := find_eq_some_iff.mp h
  refine ⟨y,?_,List.length_take_of_le hi⟩
  rw [List.append_assoc,hy,List.take_append_drop]

theorem find_length (h : find p w = some i) : i + p.length ≤ w.length := by
  obtain ⟨y,hy,hi⟩ := find_split h
  have hlength := congrArg List.length hy
  simp only [List.length_append,hi] at hlength
  omega

omit [DecidableEq A] in
/-- Where a pattern that fits into the beginning stands, it stands in the beginning. -/
theorem prefix_drop_append_iff (hi : i + p.length ≤ u.length) : p <+: (u ++ v).drop i ↔ p <+: u.drop i := by
  rw [List.drop_append_of_le_length (by omega)]
  constructor
  · intro h
    exact List.prefix_of_prefix_length_le h (List.prefix_append _ _) (by simp; omega)
  · intro h
    exact h.trans (List.prefix_append _ _)

theorem find_append (h : find p u = some i) (v : List A) : find p (u ++ v) = some i := by
  have hfits := find_length h
  obtain ⟨hhere,hi,hfirst⟩ := find_eq_some_iff.mp h
  refine find_eq_some_iff.mpr ⟨(prefix_drop_append_iff hfits).mpr hhere,by simp; omega,fun j hj hearly => ?_⟩
  exact hfirst j hj ((prefix_drop_append_iff (by omega)).mp hearly)

/-- What is not found in the beginning ends after it. -/
theorem find_append_none (h : find p u = none) (hv : find p (u ++ v) = some i) : u.length < i + p.length := by
  by_contra hfits
  obtain ⟨hhere,-,-⟩ := find_eq_some_iff.mp hv
  have hin : p <+: u.drop i := (prefix_drop_append_iff (by omega)).mp hhere
  exact find_eq_none_iff.mp h (hin.isInfix.trans (List.drop_suffix i u).isInfix)

/-- A pattern is found at a place before which it does not stand. -/
theorem find_of_split {x y : List A} (h : w = x ++ p ++ y) (hfirst : ∀ j < x.length, ¬ p <+: w.drop j) :
    find p w = some x.length := by
  subst h
  refine find_eq_some_iff.mpr ⟨?_,by simp,hfirst⟩
  rw [List.append_assoc,List.drop_left]
  exact List.prefix_append p y

end Find

section Separators

variable {d sep x y u v : List A}

/-- What has nothing in common with a separator stands before it or after it. -/
theorem split_separator (hd : d ≠ []) (hsep : sep ≠ []) (hdisjoint : ∀ c ∈ d, c ∉ sep)
    (h : x ++ d ++ y = u ++ sep ++ v) :
    (∃ z, u = x ++ d ++ z ∧ y = z ++ sep ++ v) ∨ ∃ z, x = u ++ sep ++ z ∧ v = z ++ d ++ y := by
  obtain ⟨c,ds,rfl⟩ := List.exists_cons_of_ne_nil hd
  obtain ⟨e,es,rfl⟩ := List.exists_cons_of_ne_nil hsep
  rw [List.append_assoc,List.append_assoc] at h
  rcases List.append_eq_append_iff.mp h with ⟨a,rfl,ha⟩ | ⟨a,rfl,ha⟩
  · rcases List.append_eq_append_iff.mp ha with ⟨z,rfl,hz⟩ | ⟨z,hz,hv⟩
    · exact Or.inl ⟨z,by simp,by simpa using hz⟩
    · cases z with
      | nil => exact Or.inl ⟨[],by simpa using hz.symm,by simpa using hv.symm⟩
      | cons f fs =>
        obtain ⟨rfl,-⟩ := List.cons.inj hv
        exact absurd List.mem_cons_self (hdisjoint e (hz ▸ by simp))
  · rcases List.append_eq_append_iff.mp ha with ⟨z,rfl,hz⟩ | ⟨z,hz,hv⟩
    · exact Or.inr ⟨z,by simp,by simpa using hz⟩
    · cases z with
      | nil => exact Or.inr ⟨[],by simpa using hz.symm,by simpa using hv.symm⟩
      | cons f fs =>
        obtain ⟨rfl,-⟩ := List.cons.inj hv
        exact absurd (hz ▸ by simp) (hdisjoint c List.mem_cons_self)

end Separators

/-! ## Lines -/

section Lines

variable [DecidableEq A] {c : A} {l x w : List A} {ls : List (List A)} {i : ℕ}

def linesFrom (c : A) : List A → List A → List (List A)
  | _, [] => []
  | begun, x :: xs => if x = c then (begun ++ [x]) :: linesFrom c [] xs else linesFrom c (begun ++ [x]) xs

/-- The pieces of a list that end with `c`; what stands behind the last of them is left out. -/
def lines (c : A) (w : List A) : List (List A) := linesFrom c [] w

def IsLine (c : A) (l : List A) : Prop := ∃ x, l = x ++ [c] ∧ c ∉ x

theorem linesFrom_append (hx : c ∉ x) (begun w : List A) :
    linesFrom c begun (x ++ c :: w) = (begun ++ x ++ [c]) :: linesFrom c [] w := by
  induction x generalizing begun with
  | nil => simp [linesFrom]
  | cons a x ih =>
    have ha : a ≠ c := fun heq => hx (heq ▸ List.mem_cons_self)
    have hrest : c ∉ x := fun hmem => hx (List.mem_cons_of_mem _ hmem)
    simp [linesFrom,ha,ih hrest]

theorem lines_append (h : IsLine c l) (w : List A) : lines c (l ++ w) = l :: lines c w := by
  obtain ⟨x,rfl,hx⟩ := h
  rw [List.append_assoc]
  exact linesFrom_append hx [] w

theorem lines_flatten_append (h : ∀ l ∈ ls, IsLine c l) (w : List A) : lines c (ls.flatten ++ w) = ls ++ lines c w := by
  induction ls with
  | nil => rfl
  | cons l ls ih =>
    have hrest := ih fun l' hl' => h l' (List.mem_cons_of_mem _ hl')
    rw [List.flatten_cons,List.append_assoc,lines_append (h l List.mem_cons_self),hrest,List.cons_append]

/-- Up to the first `c`, and including it. -/
theorem isLine_take (h : find [c] w = some i) : IsLine c (w.take (i + 1)) := by
  obtain ⟨⟨v,hv⟩,-,hfirst⟩ := find_eq_some_iff.mp h
  refine ⟨w.take i,?_,fun hmem => ?_⟩
  · rw [List.take_add,← hv]
    rfl
  · obtain ⟨j,hj,hget⟩ := List.getElem_of_mem hmem
    have hlength : j < i ∧ j < w.length := by simpa using hj
    refine hfirst j hlength.1 ?_
    rw [List.drop_eq_getElem_cons hlength.2]
    exact List.cons_prefix_cons.mpr ⟨by simpa using hget.symm,List.nil_prefix⟩

end Lines

/-! ## Places where a pattern does not begin -/

/-- Whatever follows, the pattern does not begin in `x`. -/
def Clear (p x : List A) : Prop := ∀ y, ∀ j < x.length, ¬ p <+: (x ++ y).drop j

section Clear

variable {p q sep x y : List A} {c : A}

theorem Clear.find [DecidableEq A] (h : Clear p x) : find p (x ++ p ++ y) = some x.length := by
  refine find_of_split rfl fun j hj => ?_
  rw [List.append_assoc]
  exact h _ j hj

/-- A longer pattern does not begin there either. -/
theorem Clear.append (h : Clear p x) (q : List A) : Clear (p ++ q) x :=
  fun y j hj hhere => h y j hj ((List.prefix_append p q).trans hhere)

theorem clear_of_not_mem (h : c ∉ x) : Clear (c :: p) x := by
  intro y j hj hhere
  rw [List.drop_append_of_le_length hj.le,List.drop_eq_getElem_cons hj,List.cons_append,List.cons_prefix_cons] at hhere
  exact h (hhere.1 ▸ List.getElem_mem hj)

/-- The end of a line is clear of what does not stand in the line. -/
theorem clear_line (hp : p ≠ []) (hsep : sep ≠ []) (hdisjoint : ∀ c ∈ p, c ∉ sep) (h : ¬ p <:+: x) :
    Clear p (x ++ sep) := by
  rintro y j hj ⟨v,hv⟩
  have hsplit : (x ++ sep ++ y).take j ++ p ++ v = x ++ sep ++ y := by
    rw [List.append_assoc,hv,List.take_append_drop]
  rcases split_separator hp hsep hdisjoint hsplit with ⟨z,hx,-⟩ | ⟨z,hlate,-⟩
  · exact h ⟨_,z,hx.symm⟩
  · have hlength := congrArg List.length hlate
    simp only [List.length_take,List.length_append] at hlength hj
    omega

end Clear
end BeastWebsocketEcho
