import Mathlib.Data.List.Basic
import Mathlib.Tactic

/-!
# Scanners that are fed in pieces

A scanner takes turns on what it has got, until it starves and is fed the next piece, or ends. One
that is stable, whose turns do not change when more is there already, ends in the same way
however its input is cut. Two scanners that take the same turns along a run end alike.
-/

namespace BeastWebsocketEcho

inductive Turn (S R : Type*)
  | goesOn (s : S)
  | starves
  | ends (r : R)

/-- `left` bounds the turns that can be taken on what is there. -/
structure Scanner (S A R : Type*) where
  turn : S → Turn S R
  feed : S → List A → S
  left : S → ℕ
  goesOn_lt : ∀ {s t}, turn s = .goesOn t → left t < left s

namespace Scanner

variable {S A R : Type*} {m n : Scanner S A R} {s t : S} {r : R}

/-- The turns on what is there, at most `k` of them: where the scanner starves, or what it ends with. -/
def settleIn (m : Scanner S A R) : ℕ → S → S ⊕ R
  | 0, s => .inl s
  | k + 1, s =>
    match m.turn s with
    | .goesOn t => m.settleIn k t
    | .starves => .inl s
    | .ends r => .inr r

def settle (m : Scanner S A R) (s : S) : S ⊕ R := m.settleIn (m.left s + 1) s

/-- The scanner is fed the pieces one by one; `finish` is what it comes to when it starves after the last one. -/
def scan (m : Scanner S A R) (finish : S → R) : S → List (List A) → R
  | s, [] =>
    match m.settle s with
    | .inl t => finish t
    | .inr r => r
  | s, piece :: pieces =>
    match m.settle s with
    | .inl t => m.scan finish (m.feed t piece) pieces
    | .inr r => r

theorem settleIn_eq {j k : ℕ} (hj : m.left s < j) (hk : m.left s < k) : m.settleIn j s = m.settleIn k s := by
  induction j generalizing k s with
  | zero => omega
  | succ j ih =>
    cases k with
    | zero => omega
    | succ k =>
      cases hturn : m.turn s with
      | goesOn t =>
        have hlt := m.goesOn_lt hturn
        simpa [settleIn,hturn] using ih (s := t) (k := k) (by omega) (by omega)
      | starves => simp [settleIn,hturn]
      | ends r => simp [settleIn,hturn]

theorem settle_goesOn (h : m.turn s = .goesOn t) : m.settle s = m.settle t := by
  have hlt := m.goesOn_lt h
  have hlong : m.settle s = m.settleIn (m.left s) t := by simp [settle,settleIn,h]
  rw [hlong]
  exact settleIn_eq hlt (by omega)

theorem settle_starves (h : m.turn s = .starves) : m.settle s = .inl s := by simp [settle,settleIn,h]

theorem settle_ends (h : m.turn s = .ends r) : m.settle s = .inr r := by simp [settle,settleIn,h]

section Scan

variable {finish : S → R} {piece : List A} {pieces : List (List A)}

theorem scan_goesOn (h : m.turn s = .goesOn t) : m.scan finish s pieces = m.scan finish t pieces := by
  cases pieces <;> simp [scan,settle_goesOn h]

theorem scan_starves_nil (h : m.turn s = .starves) : m.scan finish s [] = finish s := by simp [scan,settle_starves h]

theorem scan_starves (h : m.turn s = .starves) :
    m.scan finish s (piece :: pieces) = m.scan finish (m.feed s piece) pieces := by simp [scan,settle_starves h]

theorem scan_ends (h : m.turn s = .ends r) : m.scan finish s pieces = r := by
  cases pieces <;> simp [scan,settle_ends h]

end Scan

/-- The turns of a run, one after the other. -/
theorem induct (m : Scanner S A R) {P : S → List (List A) → Prop}
    (hgo : ∀ s t pieces, m.turn s = .goesOn t → P t pieces → P s pieces)
    (hnil : ∀ s, m.turn s = .starves → P s [])
    (hcons : ∀ s piece pieces, m.turn s = .starves → P (m.feed s piece) pieces → P s (piece :: pieces))
    (hends : ∀ s r pieces, m.turn s = .ends r → P s pieces) (s : S) (pieces : List (List A)) : P s pieces := by
  induction pieces generalizing s with
  | nil =>
    induction hleft : m.left s using Nat.strong_induction_on generalizing s with
    | _ k ih =>
      cases hturn : m.turn s with
      | goesOn t => exact hgo s t [] hturn (ih _ (hleft ▸ m.goesOn_lt hturn) t rfl)
      | starves => exact hnil s hturn
      | ends r => exact hends s r [] hturn
  | cons piece pieces ihp =>
    induction hleft : m.left s using Nat.strong_induction_on generalizing s with
    | _ k ih =>
      cases hturn : m.turn s with
      | goesOn t => exact hgo s t _ hturn (ih _ (hleft ▸ m.goesOn_lt hturn) t rfl)
      | starves => exact hcons s piece pieces hturn (ihp _)
      | ends r => exact hends s r _ hturn

/-- A relation to the result that holds at the end, and that turns and meals keep on the way back to the start. -/
theorem scan_rel {Q : S → R → Prop} {finish : S → R} (hgo : ∀ s t r, m.turn s = .goesOn t → Q t r → Q s r)
    (hfinish : ∀ s, m.turn s = .starves → Q s (finish s))
    (hfeed : ∀ s piece r, m.turn s = .starves → Q (m.feed s piece) r → Q s r)
    (hends : ∀ s r, m.turn s = .ends r → Q s r) (s : S) (pieces : List (List A)) : Q s (m.scan finish s pieces) := by
  induction s, pieces using m.induct with
  | hgo s t pieces hturn ih =>
    rw [scan_goesOn hturn]
    exact hgo s t _ hturn ih
  | hnil s hturn =>
    rw [scan_starves_nil hturn]
    exact hfinish s hturn
  | hcons s piece pieces hturn ih =>
    rw [scan_starves hturn]
    exact hfeed s piece _ hturn ih
  | hends s r pieces hturn =>
    rw [scan_ends hturn]
    exact hends s r hturn

/-- What a scanner does on what is there, it does when more is there already; `I` is kept by its runs. -/
structure Stable (m : Scanner S A R) (I : S → Prop) : Prop where
  feed_nil : ∀ s, m.feed s [] = s
  feed_append : ∀ s u v, m.feed s (u ++ v) = m.feed (m.feed s u) v
  keeps : ∀ s t, I s → m.turn s = .goesOn t → I t
  keeps_feed : ∀ s v, I s → I (m.feed s v)
  goesOn : ∀ s t v, I s → m.turn s = .goesOn t → m.turn (m.feed s v) = .goesOn (m.feed t v)
  ends : ∀ s r v, I s → m.turn s = .ends r → m.turn (m.feed s v) = .ends r

/-- A stable scanner does not see how its input is cut. -/
theorem Stable.scan_eq {I : S → Prop} (h : m.Stable I) {finish : S → R} {pieces : List (List A)} (hI : I s) :
    m.scan finish s pieces = m.scan finish (m.feed s pieces.flatten) [] := by
  revert hI
  induction s, pieces using m.induct with
  | hgo s t pieces hturn ih =>
    intro hI
    rw [scan_goesOn hturn,ih (h.keeps s t hI hturn),scan_goesOn (h.goesOn s t _ hI hturn)]
  | hnil s hturn =>
    intro _
    rw [List.flatten_nil,h.feed_nil]
  | hcons s piece pieces hturn ih =>
    intro hI
    rw [scan_starves hturn,ih (h.keeps_feed s piece hI),List.flatten_cons,h.feed_append]
  | hends s r pieces hturn =>
    intro hI
    rw [scan_ends hturn,scan_ends (h.ends s r _ hI hturn)]

/-- Every state in which the scanner takes a turn meets `P`. -/
inductive Along (m : Scanner S A R) (P : S → Prop) : S → List (List A) → Prop
  | goesOn {s t : S} {pieces : List (List A)} : P s → m.turn s = .goesOn t → Along m P t pieces → Along m P s pieces
  | starves {s : S} : P s → m.turn s = .starves → Along m P s []
  | fed {s : S} {piece : List A} {pieces : List (List A)} : P s → m.turn s = .starves →
      Along m P (m.feed s piece) pieces → Along m P s (piece :: pieces)
  | ends {s : S} {r : R} {pieces : List (List A)} : P s → m.turn s = .ends r → Along m P s pieces

/-- What an invariant implies holds along every run. -/
theorem along_of_invariant {I P : S → Prop} (hgo : ∀ s t, I s → m.turn s = .goesOn t → I t)
    (hfeed : ∀ s v, I s → I (m.feed s v)) (hP : ∀ s, I s → P s) (hI : I s) (pieces : List (List A)) :
    m.Along P s pieces := by
  revert hI
  induction s, pieces using m.induct with
  | hgo s t pieces hturn ih =>
    intro hI
    exact Along.goesOn (hP s hI) hturn (ih (hgo s t hI hturn))
  | hnil s hturn =>
    intro hI
    exact Along.starves (hP s hI) hturn
  | hcons s piece pieces hturn ih =>
    intro hI
    exact Along.fed (hP s hI) hturn (ih (hfeed s piece hI))
  | hends s r pieces hturn =>
    intro hI
    exact Along.ends (hP s hI) hturn

/-- Scanners that take the same turns where `P` holds end alike along it. -/
theorem Along.scan_eq {P : S → Prop} {finish : S → R} {pieces : List (List A)} (h : m.Along P s pieces)
    (hfeed : m.feed = n.feed) (hturn : ∀ s, P s → m.turn s = n.turn s) :
    m.scan finish s pieces = n.scan finish s pieces := by
  induction h with
  | goesOn hP hgo _ ih =>
    rw [scan_goesOn hgo,ih]
    exact (scan_goesOn (hturn _ hP ▸ hgo)).symm
  | starves hP hs => rw [scan_starves_nil hs,scan_starves_nil (hturn _ hP ▸ hs)]
  | fed hP hs _ ih => rw [scan_starves hs,ih,scan_starves (hturn _ hP ▸ hs),hfeed]
  | ends hP he => rw [scan_ends he,scan_ends (hturn _ hP ▸ he)]

theorem Along.here {P : S → Prop} {pieces : List (List A)} (h : m.Along P s pieces) : P s := by
  cases h <;> assumption

theorem Along.next {P : S → Prop} {pieces : List (List A)} (h : m.Along P s pieces) (hgo : m.turn s = .goesOn t) :
    m.Along P t pieces := by
  cases h with
  | goesOn _ hgo' hnext =>
    have hsame : t = _ := Turn.goesOn.inj (hgo.symm.trans hgo')
    exact hsame ▸ hnext
  | starves _ hs => cases hgo.symm.trans hs
  | fed _ hs => cases hgo.symm.trans hs
  | ends _ he => cases hgo.symm.trans he

/-- What holds along the run of a stable scanner that has everything already, holds along a run that takes the same
turns and is fed in pieces. -/
theorem Stable.along {I P : S → Prop} {pieces : List (List A)} (h : n.Stable I) (hfeed : m.feed = n.feed)
    (hturn : ∀ s, P s → m.turn s = n.turn s) (hless : ∀ s v, P (n.feed s v) → P s) (hI : I s)
    (halong : n.Along P (n.feed s pieces.flatten) []) : m.Along P s pieces := by
  revert hI halong
  induction s, pieces using m.induct with
  | hgo s t pieces hgo ih =>
    intro hI halong
    have hP := hless _ _ halong.here
    have hgo' : n.turn s = .goesOn t := hturn s hP ▸ hgo
    exact Along.goesOn hP hgo (ih (h.keeps s t hI hgo') (halong.next (h.goesOn s t _ hI hgo')))
  | hnil s hs =>
    intro _ halong
    exact Along.starves (hless _ _ halong.here) hs
  | hcons s piece pieces hs ih =>
    intro hI halong
    rw [List.flatten_cons,h.feed_append] at halong
    refine Along.fed (hless _ _ (hless _ _ halong.here)) hs ?_
    rw [hfeed] at ih ⊢
    exact ih (h.keeps_feed s piece hI) halong
  | hends s r pieces he =>
    intro _ halong
    exact Along.ends (hless _ _ halong.here) he

theorem along_iff {I P : S → Prop} {finish : S → R} {pieces : List (List A)} (hfeed : m.feed = n.feed)
    (hturn : ∀ s, P s → m.turn s = n.turn s) (hkeeps : ∀ s t, I s → m.turn s = .goesOn t → I t)
    (hkeeps' : ∀ s v, I s → I (m.feed s v))
    (hbreak : ∀ s pieces, I s → ¬ P s → m.scan finish s pieces ≠ n.scan finish s pieces) (hI : I s) :
    m.scan finish s pieces = n.scan finish s pieces ↔ m.Along P s pieces := by
  refine ⟨fun hsame => ?_,fun halong => halong.scan_eq hfeed hturn⟩
  revert hI hsame
  induction s, pieces using m.induct with
  | hgo s t pieces hgo ih =>
    intro hI hsame
    have hP : P s := by
      by_contra hnot
      exact hbreak s pieces hI hnot hsame
    have hgo' : n.turn s = .goesOn t := hturn s hP ▸ hgo
    rw [scan_goesOn hgo,scan_goesOn hgo'] at hsame
    exact Along.goesOn hP hgo (ih (hkeeps s t hI hgo) hsame)
  | hnil s hs =>
    intro hI hsame
    have hP : P s := by
      by_contra hnot
      exact hbreak s [] hI hnot hsame
    exact Along.starves hP hs
  | hcons s piece pieces hs ih =>
    intro hI hsame
    have hP : P s := by
      by_contra hnot
      exact hbreak s _ hI hnot hsame
    have hs' : n.turn s = .starves := hturn s hP ▸ hs
    rw [scan_starves hs,scan_starves hs',← hfeed] at hsame
    exact Along.fed hP hs (ih (hkeeps' s piece hI) hsame)
  | hends s r pieces he =>
    intro hI hsame
    have hP : P s := by
      by_contra hnot
      exact hbreak s pieces hI hnot hsame
    exact Along.ends hP he

end Scanner
end BeastWebsocketEcho
