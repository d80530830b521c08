import Mathlib.Data.List.Basic
import Mathlib.Tactic

/-!
# Regular expressions with groups

Expressions over any alphabet, whose letters are classes, with the words they match and what their
groups take of them. `run` is a backtracking matcher: it lists all ways to match a beginning of a word, the
longest runs of a class first. A full match takes the first way that leaves nothing over.
-/

namespace BeastWebsocketEcho

inductive Regex (A : Type*)
  | empty
  | one (p : A → Bool)
  | many (p : A → Bool)
  | seq (r s : Regex A)
  | group (r : Regex A)

namespace Regex

variable {A : Type*}

/-- The expression matches the word, and the groups are what its groups take. -/
inductive Matches : Regex A → List A → List (List A) → Prop
  | empty : Matches .empty [] []
  | one {p c} (hc : p c = true) : Matches (.one p) [c] []
  | many {p w} (hw : ∀ c ∈ w, p c = true) : Matches (.many p) w []
  | seq {r s u v gs gs'} (hr : Matches r u gs) (hs : Matches s v gs') : Matches (.seq r s) (u ++ v) (gs ++ gs')
  | group {r w gs} (hr : Matches r w gs) : Matches (.group r) w (w :: gs)

/-- What is left behind a beginning in the class. -/
def rests (p : A → Bool) : List A → List (List A)
  | [] => [[]]
  | c :: w => if p c then rests p w ++ [c :: w] else [c :: w]

/-- What is left behind a beginning that matches, with what the groups take. -/
def run : Regex A → List A → List (List A × List (List A))
  | .empty, w => [(w,[])]
  | .one p, w => match w with
    | [] => []
    | c :: w => if p c then [(w,[])] else []
  | .many p, w => (rests p w).map fun rest => (rest,[])
  | .seq r s, w => (r.run w).flatMap fun x => (s.run x.1).map fun y => (y.1,x.2 ++ y.2)
  | .group r, w => (r.run w).map fun x => (x.1,w.take (w.length - x.1.length) :: x.2)

def fullMatch (r : Regex A) (w : List A) : Option (List (List A)) :=
  ((r.run w).find? fun x => x.1.isEmpty).map Prod.snd

def word : List (A → Bool) → Regex A
  | [] => .empty
  | p :: ps => .seq (.one p) (word ps)

def oneOrMore (p : A → Bool) : Regex A := .seq (.one p) (.many p)

section Matching

variable {r s : Regex A} {p : A → Bool} {w rest : List A} {gs : List (List A)}

theorem mem_rests_iff : rest ∈ rests p w ↔ ∃ u, w = u ++ rest ∧ ∀ c ∈ u, p c = true := by
  induction w with
  | nil =>
    simp only [rests,List.mem_singleton,List.nil_eq_append_iff]
    constructor
    · rintro rfl
      exact ⟨[],⟨rfl,rfl⟩,by simp⟩
    · rintro ⟨u,⟨-,rfl⟩,-⟩
      rfl
  | cons c w ih =>
    by_cases hc : p c = true
    · simp only [rests,hc,if_true,List.mem_append,ih,List.mem_singleton]
      constructor
      · rintro (⟨u,rfl,hu⟩ | rfl)
        · exact ⟨c :: u,rfl,by simpa [hc] using hu⟩
        · exact ⟨[],rfl,by simp⟩
      · rintro ⟨u,hw,hu⟩
        cases u with
        | nil => exact Or.inr hw.symm
        | cons d u =>
          obtain ⟨rfl,rfl⟩ := List.cons.inj hw
          exact Or.inl ⟨u,rfl,fun e he => hu e (List.mem_cons_of_mem _ he)⟩
    · simp only [rests,hc,if_false,List.mem_singleton,Bool.false_eq_true]
      constructor
      · rintro rfl
        exact ⟨[],rfl,by simp⟩
      · rintro ⟨u,hw,hu⟩
        cases u with
        | nil => exact hw.symm
        | cons d u =>
          obtain ⟨rfl,-⟩ := List.cons.inj hw
          exact absurd (hu c List.mem_cons_self) hc

/-- The matcher finds all ways to match a beginning, and no others. -/
theorem mem_run_iff : (rest,gs) ∈ r.run w ↔ ∃ u, w = u ++ rest ∧ r.Matches u gs := by
  induction r generalizing w rest gs with
  | empty =>
    simp only [run,List.mem_singleton,Prod.mk.injEq]
    constructor
    · rintro ⟨rfl,rfl⟩
      exact ⟨[],rfl,.empty⟩
    · rintro ⟨u,rfl,hu⟩
      cases hu
      exact ⟨rfl,rfl⟩
  | one p =>
    constructor
    · intro h
      cases w with
      | nil => simp [run] at h
      | cons c w =>
        by_cases hc : p c = true
        · obtain ⟨rfl,rfl⟩ : rest = w ∧ gs = [] := by simpa [run,hc] using h
          exact ⟨[c],rfl,.one hc⟩
        · simp [run,hc] at h
    · rintro ⟨u,rfl,hu⟩
      cases hu with
      | one hc => simp [run,hc]
  | many p =>
    simp only [run,List.mem_map,Prod.mk.injEq]
    constructor
    · rintro ⟨x,hx,rfl,rfl⟩
      obtain ⟨u,rfl,hu⟩ := mem_rests_iff.mp hx
      exact ⟨u,rfl,.many hu⟩
    · rintro ⟨u,rfl,hu⟩
      cases hu with
      | many hw => exact ⟨rest,mem_rests_iff.mpr ⟨u,rfl,hw⟩,rfl,rfl⟩
  | seq r s ihr ihs =>
    simp only [run,List.mem_flatMap,List.mem_map,Prod.mk.injEq]
    constructor
    · rintro ⟨⟨w',gs'⟩,hr,⟨rest',hs'⟩,hs,rfl,rfl⟩
      obtain ⟨u,rfl,hu⟩ := ihr.mp hr
      obtain ⟨v,rfl,hv⟩ := ihs.mp hs
      exact ⟨u ++ v,by simp,.seq hu hv⟩
    · rintro ⟨u,rfl,hu⟩
      cases hu with
      | @seq _ _ u v gs' hs' hr hs =>
        exact ⟨(v ++ rest,gs'),ihr.mpr ⟨u,by simp,hr⟩,(rest,hs'),ihs.mpr ⟨v,rfl,hs⟩,rfl,rfl⟩
  | group r ih =>
    simp only [run,List.mem_map,Prod.mk.injEq]
    constructor
    · rintro ⟨⟨w',gs'⟩,hr,rfl,rfl⟩
      obtain ⟨u,rfl,hu⟩ := ih.mp hr
      refine ⟨u,rfl,?_⟩
      simpa using Matches.group hu
    · rintro ⟨u,rfl,hu⟩
      cases hu with
      | @group _ _ gs' hr => exact ⟨(rest,gs'),ih.mpr ⟨u,rfl,hr⟩,rfl,by simp⟩

theorem matches_of_fullMatch (h : r.fullMatch w = some gs) : r.Matches w gs := by
  obtain ⟨⟨rest,gs'⟩,hfind,rfl⟩ := Option.map_eq_some_iff.mp h
  have hempty : rest = [] := by simpa using List.find?_some hfind
  obtain ⟨u,rfl,hu⟩ := mem_run_iff.mp (List.mem_of_find?_eq_some hfind)
  simpa [hempty] using hu

theorem fullMatch_eq_none_iff : r.fullMatch w = none ↔ ∀ gs, ¬ r.Matches w gs := by
  constructor
  · intro h gs hgs
    have hmem : ([],gs) ∈ r.run w := mem_run_iff.mpr ⟨w,by simp,hgs⟩
    have hnone := List.find?_eq_none.mp (Option.map_eq_none_iff.mp h) _ hmem
    simp at hnone
  · intro h
    cases hm : r.fullMatch w with
    | none => rfl
    | some gs => exact absurd (matches_of_fullMatch hm) (h gs)

/-- Where there is only one way to match, that is the way. -/
theorem fullMatch_eq_some_iff (hunique : ∀ gs gs', r.Matches w gs → r.Matches w gs' → gs = gs') :
    r.fullMatch w = some gs ↔ r.Matches w gs := by
  refine ⟨matches_of_fullMatch,fun h => ?_⟩
  cases hm : r.fullMatch w with
  | none => exact absurd h (fullMatch_eq_none_iff.mp hm gs)
  | some gs' => rw [hunique _ _ (matches_of_fullMatch hm) h]

theorem matches_seq_iff : (seq r s).Matches w gs ↔
    ∃ u v gs' hs, w = u ++ v ∧ gs = gs' ++ hs ∧ r.Matches u gs' ∧ s.Matches v hs := by
  constructor
  · intro h
    cases h with
    | seq hr hs => exact ⟨_,_,_,_,rfl,rfl,hr,hs⟩
  · rintro ⟨u,v,gs',hs,rfl,rfl,hr,hs'⟩
    exact .seq hr hs'

theorem matches_many_iff : (many p).Matches w gs ↔ gs = [] ∧ ∀ c ∈ w, p c = true := by
  constructor
  · intro h
    cases h with
    | many hw => exact ⟨rfl,hw⟩
  · rintro ⟨rfl,hw⟩
    exact .many hw

theorem matches_group_iff : (group r).Matches w gs ↔ ∃ gs', gs = w :: gs' ∧ r.Matches w gs' := by
  constructor
  · intro h
    cases h with
    | group hr => exact ⟨_,rfl,hr⟩
  · rintro ⟨gs',rfl,hr⟩
    exact .group hr

theorem matches_word_iff {ps : List (A → Bool)} :
    (word ps).Matches w gs ↔ gs = [] ∧ List.Forall₂ (fun p c => p c = true) ps w := by
  induction ps generalizing w gs with
  | nil =>
    constructor
    · intro h
      cases h
      exact ⟨rfl,.nil⟩
    · rintro ⟨rfl,h⟩
      cases h
      exact .empty
  | cons p ps ih =>
    rw [word,matches_seq_iff]
    constructor
    · rintro ⟨u,v,gs',hs,rfl,rfl,hone,hword⟩
      obtain ⟨rfl,hrest⟩ := ih.mp hword
      cases hone with
      | one hc => exact ⟨rfl,.cons hc hrest⟩
    · rintro ⟨rfl,h⟩
      cases h with
      | @cons _ c _ w hc hrest => exact ⟨[c],w,[],[],rfl,rfl,.one hc,ih.mpr ⟨rfl,hrest⟩⟩

theorem matches_oneOrMore_iff : (oneOrMore p).Matches w gs ↔ gs = [] ∧ w ≠ [] ∧ ∀ c ∈ w, p c = true := by
  rw [oneOrMore,matches_seq_iff]
  constructor
  · rintro ⟨u,v,gs',hs,rfl,rfl,hone,hmany⟩
    obtain ⟨rfl,hv⟩ := matches_many_iff.mp hmany
    cases hone with
    | one hc => exact ⟨rfl,by simp,by simpa [hc] using hv⟩
  · rintro ⟨rfl,hne,hw⟩
    cases w with
    | nil => exact absurd rfl hne
    | cons c w =>
      have htail := matches_many_iff.mpr ⟨rfl,fun d hd => hw d (List.mem_cons_of_mem _ hd)⟩
      exact ⟨[c],w,[],[],rfl,rfl,.one (hw c List.mem_cons_self),htail⟩

end Matching
end Regex
end BeastWebsocketEcho
