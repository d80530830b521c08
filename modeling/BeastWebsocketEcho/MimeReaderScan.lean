import BeastWebsocketEcho.MimeReader
import Mathlib.Data.List.TakeWhile

/-!
# How the body arrives

A scanner that takes the boundary line which ends first is stable: it does not see how its input is
cut. The loop takes the part line wherever it is, so it passes over a closing line exactly if a
part line behind that one is in the store when it looks.
-/

namespace BeastWebsocketEcho
namespace MimeReader

/-- The boundary line that ends first. -/
def searchInOrder (boundary store : Octets) : Option Boundary :=
  match find (partLine boundary) store,find (closingLine boundary) store with
  | some pos,some closing => some (if pos ≤ closing + 2 then .part pos else .closing closing)
  | some pos,none => some (.part pos)
  | none,closing => closing.map .closing

theorem sound_searchInOrder : Sound searchInOrder := by
  intro boundary store
  cases hpart : find (partLine boundary) store <;> cases hclosing : find (closingLine boundary) store <;>
    simp [searchInOrder,hpart,hclosing]
  next pos closing => split <;> simp

/-- What the loop should do: it knows no order but that of the lines. -/
def orderly (boundary : Octets) : Scanner State UInt8 Outcome := scanner searchInOrder sound_searchInOrder boundary

/-- The loop does not look past a closing line. -/
def Calm (boundary : Octets) (s : State) : Prop :=
  s.place = .nextBoundary → ∀ pos closing, find (partLine boundary) s.store = some pos →
    find (closingLine boundary) s.store = some closing → pos ≤ closing + 2

/-- A previous part stands behind the end of its header lines. -/
def Aligned (s : State) : Prop := s.place = .nextBoundary → s.firstPart = false → crlf <+: s.store

variable {boundary : Octets} {s t : State}

theorem searchInOrder_eq (h : ∀ pos closing, find (partLine boundary) s.store = some pos →
    find (closingLine boundary) s.store = some closing → pos ≤ closing + 2) :
    searchInOrder boundary s.store = searchBoundary boundary s.store := by
  cases hpart : find (partLine boundary) s.store with
  | none => simp [searchInOrder,searchBoundary,hpart]
  | some pos =>
    cases hclosing : find (closingLine boundary) s.store with
    | none => simp [searchInOrder,searchBoundary,hpart,hclosing]
    | some closing => simp [searchInOrder,searchBoundary,hpart,hclosing,h pos closing hpart hclosing]

/-- A calm loop takes the turns of the orderly one. -/
theorem turn_of_calm (h : Calm boundary s) : (reader boundary).turn s = (orderly boundary).turn s := by
  change turn searchBoundary boundary s = turn searchInOrder boundary s
  unfold turn
  cases hplace : s.place with
  | nextBoundary => simp only [searchInOrder_eq (h hplace)]
  | nextHeader => rfl

/-- Nothing that begins with a dash stands in the line end that a part begins with. -/
theorem Aligned.pos (h : Aligned s) (hplace : s.place = .nextBoundary) (hfirst : s.firstPart = false) {line : Octets}
    {pos : ℕ} (hfind : find (45 :: line) s.store = some pos) : 2 ≤ pos := by
  obtain ⟨v,hv⟩ := h hplace hfirst
  obtain ⟨hhere,-,-⟩ := find_eq_some_iff.mp hfind
  rw [← hv] at hhere
  match pos with
  | 0 => simp [crlf] at hhere
  | 1 => simp [crlf] at hhere
  | pos + 2 => omega

theorem aligned_turn {search : Octets → Octets → Option Boundary} (h : turn search boundary s = .goesOn t) :
    Aligned t := by
  rcases turn_goesOn_cases h with ⟨pos,-,-,rfl⟩ | ⟨-,hfound,rfl⟩ | ⟨pos,hplace,-,rfl⟩
  · intro hheader
    cases hheader
  · intro _ _
    simpa using (find_eq_some_iff.mp hfound).1
  · intro hheader
    cases hplace.symm.trans hheader

theorem Aligned.feed (h : Aligned s) (v : Octets) : Aligned { s with store := s.store ++ v } :=
  fun hplace hfirst => (h hplace hfirst).trans (List.prefix_append _ _)

/-- What comes behind a boundary that was found does not change which one is first. -/
theorem searchInOrder_append {w : Octets} {found : Boundary} (h : searchInOrder boundary w = some found) (v : Octets) :
    searchInOrder boundary (w ++ v) = some found := by
  cases hpart : find (partLine boundary) w with
  | some pos =>
    have hpart' := find_append hpart v
    have hfits := find_length hpart
    cases hclosing : find (closingLine boundary) w with
    | some closing =>
      simpa [searchInOrder,hpart,hclosing,hpart',find_append hclosing v] using h
    | none =>
      have hfound : found = .part pos := by simpa [searchInOrder,hpart,hclosing,eq_comm] using h
      cases hlate : find (closingLine boundary) (w ++ v) with
      | none => simp [searchInOrder,hpart',hlate,hfound]
      | some closing =>
        have hafter := find_append_none hclosing hlate
        simp only [length_partLine] at hfits
        simp only [length_closingLine] at hafter
        have hle : pos ≤ closing + 2 := by omega
        simp [searchInOrder,hpart',hlate,hfound,hle]
  | none =>
    cases hclosing : find (closingLine boundary) w with
    | none => simp [searchInOrder,hpart,hclosing] at h
    | some closing =>
      have hfound : found = .closing closing := by simpa [searchInOrder,hpart,hclosing,eq_comm] using h
      have hclosing' := find_append hclosing v
      have hfits := find_length hclosing
      cases hlate : find (partLine boundary) (w ++ v) with
      | none => simp [searchInOrder,hlate,hclosing',hfound]
      | some pos =>
        have hafter := find_append_none hpart hlate
        simp only [length_partLine] at hafter
        simp only [length_closingLine] at hfits
        have hlt : ¬ pos ≤ closing + 2 := by omega
        simp [searchInOrder,hlate,hclosing',hfound,hlt]

/-- What is printed at a boundary lies before it. -/
theorem emit_append (h : Aligned s) (hplace : s.place = .nextBoundary) {line : Octets} {pos : ℕ}
    (hfind : find (45 :: line) s.store = some pos) (v : Octets) :
    State.emit { s with store := s.store ++ v } pos = s.emit pos := by
  cases hfirst : s.firstPart with
  | true => simp [State.emit,hfirst]
  | false =>
    have hpos := h.pos hplace hfirst hfind
    have hlength := find_length hfind
    have hnot : ¬ pos < 2 := by omega
    have hle : pos - 2 ≤ s.store.length := by omega
    simp [State.emit,hfirst,part,hnot,List.take_append_of_le_length hle]

theorem turn_append_goesOn (h : Aligned s) (v : Octets) (hturn : turn searchInOrder boundary s = .goesOn t) :
    turn searchInOrder boundary { s with store := s.store ++ v } = .goesOn { t with store := t.store ++ v } := by
  rcases turn_goesOn_cases hturn with ⟨pos,hplace,hfound,rfl⟩ | ⟨hplace,hfound,rfl⟩ | ⟨pos,hplace,hfound,rfl⟩
  · have hfind := (sound_searchInOrder boundary s.store).1 pos hfound
    have hdrop : (s.store ++ v).drop (pos + (partLine boundary).length) =
        s.store.drop (pos + (partLine boundary).length) ++ v := List.drop_append_of_le_length (find_length hfind)
    have hemit := emit_append h hplace hfind v
    simp only [turn,hplace,searchInOrder_append hfound v,atBoundary,hdrop] at hemit ⊢
    rw [hemit]
  · simp [turn,hplace,atHeader,find_append hfound v]
  · have hlength := find_length hfound
    have hdrop : (s.store ++ v).drop (pos + 1 + 2) = s.store.drop (pos + 1 + 2) ++ v :=
      List.drop_append_of_le_length (by simpa [crlf] using hlength)
    simp [turn,hplace,atHeader,find_append hfound v,hdrop]

theorem turn_append_ends (h : Aligned s) (v : Octets) {r : Outcome} (hturn : turn searchInOrder boundary s = .ends r) :
    turn searchInOrder boundary { s with store := s.store ++ v } = .ends r := by
  obtain ⟨pos,hplace,hfound,rfl⟩ := turn_ends_cases hturn
  have hfind := (sound_searchInOrder boundary s.store).2 pos hfound
  have hemit := emit_append h hplace hfind v
  simp only [turn,hplace,searchInOrder_append hfound v,atBoundary] at hemit ⊢
  rw [hemit]

theorem stable_orderly (boundary : Octets) : (orderly boundary).Stable Aligned where
  feed_nil s := by simp [orderly,scanner]
  feed_append s u v := by simp [orderly,scanner]
  keeps s t _ hturn := aligned_turn hturn
  keeps_feed s v h := h.feed v
  goesOn s t v h := turn_append_goesOn h v
  ends s r v h := turn_append_ends h v

/-- The read that comes when the body is used up fails. -/
def failed (s : State) : Outcome := (s.parts,.readError)

/-- Before it can end, the loop owes another part. -/
def Owes (s : State) : Prop := s.place = .nextHeader ∨ s.firstPart = false

theorem emit_grows (s : State) (pos : ℕ) : s.parts <+: s.emit pos := by
  unfold State.emit
  split <;> simp

/-- Printed is printed, and what is owed is printed before the end. -/
theorem reader_parts (boundary : Octets) (s : State) (pieces : List Octets) :
    s.parts <+: ((reader boundary).scan failed s pieces).1 ∧
      (Owes s → ((reader boundary).scan failed s pieces).2 = .endOfStream →
        s.parts.length < ((reader boundary).scan failed s pieces).1.length) := by
  refine (reader boundary).scan_rel
    (Q := fun s r => s.parts <+: r.1 ∧ (Owes s → r.2 = .endOfStream → s.parts.length < r.1.length)) ?_ ?_ ?_ ?_ s pieces
  · intro s t r hturn ht
    rcases turn_goesOn_cases hturn with ⟨pos,-,-,rfl⟩ | ⟨-,-,rfl⟩ | ⟨pos,hplace,-,rfl⟩
    · refine ⟨(emit_grows s pos).trans ht.1,fun _ hend => ?_⟩
      exact lt_of_le_of_lt (emit_grows s pos).length_le (ht.2 (Or.inl rfl) hend)
    · exact ⟨ht.1,fun _ => ht.2 (Or.inr rfl)⟩
    · exact ⟨ht.1,fun _ => ht.2 (Or.inl hplace)⟩
  · intro s _
    exact ⟨List.prefix_refl _,fun _ hend => by cases hend⟩
  · intro s piece r _ ht
    exact ht
  · intro s r hturn
    obtain ⟨pos,hplace,-,rfl⟩ := turn_ends_cases hturn
    refine ⟨emit_grows s pos,fun howes _ => ?_⟩
    have hfirst : s.firstPart = false := by simpa [Owes,hplace] using howes
    simp [State.emit,hfirst]

/-- A loop that has looked past a closing line ends otherwise than it should. -/
theorem scan_ne_of_not_calm (h : ¬ Calm boundary s) (pieces : List Octets) :
    (reader boundary).scan failed s pieces ≠ (orderly boundary).scan failed s pieces := by
  simp only [Calm,not_forall,not_le] at h
  obtain ⟨hplace,pos,closing,hpart,hclosing,hlt⟩ := h
  have hfound : searchBoundary boundary s.store = some (.part pos) := by simp [searchBoundary,hpart]
  have hfirst : searchInOrder boundary s.store = some (.closing closing) := by
    simp [searchInOrder,hpart,hclosing,Nat.not_le.mpr hlt]
  have hends : (orderly boundary).turn s = .ends (s.emit closing,.endOfStream) := by
    change turn searchInOrder boundary s = _
    simp [turn,hplace,hfirst,atBoundary]
  have hgoes : (reader boundary).turn s = .goesOn { s with
      place := .nextHeader, store := s.store.drop (pos + (partLine boundary).length), parts := s.emit pos } := by
    change turn searchBoundary boundary s = _
    simp [turn,hplace,hfound,atBoundary]
  rw [Scanner.scan_ends hends,Scanner.scan_goesOn hgoes]
  intro hsame
  have howes := (reader_parts boundary { s with
    place := .nextHeader, store := s.store.drop (pos + (partLine boundary).length), parts := s.emit pos } pieces).2
      (Or.inl rfl)
  rw [hsame] at howes
  have hlength := howes rfl
  unfold State.emit at hlength
  split at hlength <;> simp at hlength

/-- The loop ends like the orderly one exactly if it is calm. -/
theorem scan_eq_orderly_iff {pieces : List Octets} : (reader boundary).scan failed s pieces =
    (orderly boundary).scan failed s pieces ↔ (reader boundary).Along (Calm boundary) s pieces :=
  Scanner.along_iff (I := fun _ => True) rfl (fun _ hcalm => turn_of_calm hcalm) (fun _ _ _ _ => trivial)
    (fun _ _ _ => trivial) (fun _ pieces _ hcalm => scan_ne_of_not_calm hcalm pieces) trivial

/-- A loop that finds the closing line, and no part line, ends. -/
theorem along_closing {store : Octets} {pos : ℕ} {pieces : List Octets} (hpart : find (partLine boundary) store = none)
    (hclosing : find (closingLine boundary) store = some pos) :
    (reader boundary).Along (Calm boundary) ⟨.nextBoundary,store,true,[]⟩ pieces := by
  refine Scanner.Along.ends (r := ([],.endOfStream)) ?_ ?_
  · intro _ pos closing hsome
    exact absurd (hpart.symm.trans hsome) (by simp)
  · change atBoundary boundary _ (searchBoundary boundary store) = _
    rw [searchBoundary,hpart,hclosing]
    rfl

/-! ## The reads of `test` -/

def left (body : BodySize) (chunk : Octets) : Octets :=
  (chunk ++ List.replicate (512 - chunk.length) 0).take (body.size chunk.length)

def delivered (body : BodySize) (reads : List Octets) : Octets := (reads.map (left body)).flatten

def Fits (reads : List Octets) : Prop := ∀ chunk ∈ reads, chunk.length ≤ 512

def start (headerBytes : ℕ) : State := ⟨.nextBoundary,headerStore headerBytes,true,[]⟩

/-- No read of the run brings a closing line together with a part line behind it. -/
def CalmReads (body : BodySize) (boundary : Octets) (headerBytes : ℕ) (reads : List Octets) : Prop :=
  (reader boundary).Along (Calm boundary) (start headerBytes) (reads.map (left body))

variable {body : BodySize} {store chunk : Octets} {headerBytes : ℕ} {reads : List Octets}

theorem filled_eq (store chunk : Octets) (n : ℕ) : (grow store n).take ((grow store n).length - n) ++ chunk ++
    (grow store n).drop ((grow store n).length - n + chunk.length) =
      store ++ (chunk ++ List.replicate (n - chunk.length) 0) := by
  simp [grow,List.drop_append]

theorem receive_eq (h : chunk.length ≤ 512) : receive body store chunk = store ++ left body chunk := by
  have hsize := body.size_le chunk.length
  have hlength : (store ++ (chunk ++ List.replicate (512 - chunk.length) (0 : UInt8))).length = store.length + 512 := by
    simp only [List.length_append,List.length_replicate]
    omega
  simp only [receive,shrink,hsize,if_true]
  rw [filled_eq,hlength,show store.length + 512 - (512 - body.size chunk.length) = store.length + body.size chunk.length
    by omega,List.take_length_add_append]
  rfl

/-- The reads before the first one that finds more than it has room for. -/
def fitting (reads : List Octets) : List Octets := reads.takeWhile fun chunk => decide (chunk.length ≤ 512)

/-- What the read after those comes to. -/
def exhausted (reads : List Octets) (s : State) : Outcome :=
  if reads.all fun chunk => decide (chunk.length ≤ 512) then failed s else (s.parts,.needBuffer)

theorem loop_eq_scan_fitting (body : BodySize) (boundary : Octets) (s : State) (reads : List Octets) :
    loop body boundary s reads = (reader boundary).scan (exhausted reads) s ((fitting reads).map (left body)) := by
  induction reads generalizing s with
  | nil =>
    simp only [loop,fitting,List.takeWhile_nil,List.map_nil,Scanner.scan]
    cases (reader boundary).settle s <;> rfl
  | cons chunk reads ih =>
    by_cases hchunk : chunk.length ≤ 512
    · have hfitting : fitting (chunk :: reads) = chunk :: fitting reads := by simp [fitting,hchunk]
      have hexhausted : exhausted (chunk :: reads) = exhausted reads := by
        funext t
        simp [exhausted,hchunk]
      rw [hfitting,hexhausted]
      simp only [loop,List.map_cons,Scanner.scan]
      cases (reader boundary).settle s with
      | inr r => rfl
      | inl t =>
        simp only [hchunk,if_true,receive_eq hchunk]
        exact ih _
    · have hfitting : fitting (chunk :: reads) = [] := by simp [fitting,hchunk]
      rw [hfitting]
      simp only [loop,List.map_nil,Scanner.scan]
      cases (reader boundary).settle s with
      | inr r => rfl
      | inl t => simp [exhausted,hchunk]

theorem loop_eq_scan (h : Fits reads) :
    loop body boundary s reads = (reader boundary).scan failed s (reads.map (left body)) := by
  have hfitting : fitting reads = reads := List.takeWhile_eq_self_iff.mpr fun chunk hc => decide_eq_true (h chunk hc)
  have hexhausted : exhausted reads = failed := by
    funext t
    have hall : (reads.all fun chunk => decide (chunk.length ≤ 512)) = true :=
      List.all_eq_true.mpr fun chunk hc => decide_eq_true (h chunk hc)
    simp only [exhausted,hall,if_true]
  rw [loop_eq_scan_fitting,hfitting,hexhausted]

/-- Two ways in which the body arrives, that leave the same in the store: if one of them is calm, the scan is the same
exactly if the other one is. -/
theorem same_scan_iff {reads' : List Octets} (hfits : Fits reads) (hfits' : Fits reads')
    (hsame : delivered body reads = delivered body reads') (hcalm : CalmReads body boundary headerBytes reads') :
    test body boundary headerBytes reads = test body boundary headerBytes reads' ↔
      CalmReads body boundary headerBytes reads := by
  have haligned : Aligned (start headerBytes) := by
    intro _ hfirst
    cases hfirst
  have hstable := stable_orderly boundary
  have horderly : (orderly boundary).scan failed (start headerBytes) (reads.map (left body)) =
      (orderly boundary).scan failed (start headerBytes) (reads'.map (left body)) := by
    rw [hstable.scan_eq haligned,hstable.scan_eq haligned]
    exact congrArg
      (fun octets => (orderly boundary).scan failed ((orderly boundary).feed (start headerBytes) octets) []) hsame
  unfold test
  rw [loop_eq_scan hfits,loop_eq_scan hfits']
  change (reader boundary).scan failed (start headerBytes) _ = (reader boundary).scan failed (start headerBytes) _ ↔ _
  rw [scan_eq_orderly_iff.mpr hcalm,← horderly]
  exact scan_eq_orderly_iff

/-! ## The offsets -/

/-- Every offset that a pass uses lies in the store, and before the boundary behind a part there is room for
the line end that the part does not include. -/
structure Inside (boundary : Octets) (s : State) : Prop where
  part : s.place = .nextBoundary → ∀ pos, searchBoundary boundary s.store = some (.part pos) →
    (s.firstPart = false → 2 ≤ pos ∧ pos ≤ s.store.length) ∧ pos + (partLine boundary).length ≤ s.store.length
  closing : s.place = .nextBoundary → ∀ pos, searchBoundary boundary s.store = some (.closing pos) →
    s.firstPart = false → 2 ≤ pos ∧ pos ≤ s.store.length
  header : s.place = .nextHeader → ∀ pos, find crlf s.store = some pos → pos + 2 ≤ s.store.length

theorem Aligned.inside (h : Aligned s) (boundary : Octets) : Inside boundary s where
  part hplace pos hfound := by
    have hfind := (sound_searchBoundary boundary s.store).1 pos hfound
    have hlength := find_length hfind
    exact ⟨fun hfirst => ⟨h.pos hplace hfirst hfind,by omega⟩,hlength⟩
  closing hplace pos hfound hfirst := by
    have hfind := (sound_searchBoundary boundary s.store).2 pos hfound
    have hlength := find_length hfind
    exact ⟨h.pos hplace hfirst hfind,by omega⟩
  header _ pos hfound := find_length hfound

/-- The loop passes over the reads that fit, and whatever they bring, every offset it uses lies in the store. -/
theorem offsets_inside (body : BodySize) (boundary : Octets) (headerBytes : ℕ) (reads : List Octets) :
    test body boundary headerBytes reads =
      (reader boundary).scan (exhausted reads) (start headerBytes) ((fitting reads).map (left body)) ∧
    (reader boundary).Along (Inside boundary) (start headerBytes) ((fitting reads).map (left body)) := by
  refine ⟨loop_eq_scan_fitting body boundary (start headerBytes) reads,?_⟩
  refine Scanner.along_of_invariant (I := Aligned) ?_ ?_ ?_ ?_ _
  · intro s t _ hturn
    exact aligned_turn hturn
  · intro s v hs
    exact hs.feed v
  · intro s hs
    exact hs.inside boundary
  · intro _ hfirst
    cases hfirst

def documented : BodySize := ⟨fun n => 512 - n,fun n => by omega⟩

/-- The closing line and zeros, cut at 256 or at 255. -/
def cutAt256 : List Octets := [closingLine (ascii "b") ++ List.replicate 249 0,List.replicate 256 0]

def cutAt255 : List Octets := [closingLine (ascii "b") ++ List.replicate 248 0,List.replicate 257 0]

theorem calm_closing {chunk w : Octets} {reads : List Octets} (hleft : left documented chunk = w)
    (hpart : find (partLine (ascii "b")) w = none) (hclosing : find (closingLine (ascii "b")) w = some 0) :
    CalmReads documented (ascii "b") 300 (chunk :: reads) := by
  refine Scanner.Along.fed ?_ rfl ?_
  · intro _ pos closing hnone
    cases hnone
  · have hfed : (reader (ascii "b")).feed (start 300) (left documented chunk) = ⟨.nextBoundary,w,true,[]⟩ := by
      rw [hleft]
      rfl
    rw [hfed]
    exact along_closing hpart hclosing

theorem same_scan_cutClosing : cutAt256.flatten = cutAt255.flatten ∧ CalmReads documented (ascii "b") 300 cutAt256 ∧
    test documented (ascii "b") 300 cutAt256 = test documented (ascii "b") 300 cutAt255 := by
  have hcalm : CalmReads documented (ascii "b") 300 cutAt255 :=
    calm_closing (w := closingLine (ascii "b") ++ List.replicate 250 0) (by decide +kernel) (by decide +kernel)
      (by decide +kernel)
  have hcalm' : CalmReads documented (ascii "b") 300 cutAt256 :=
    calm_closing (w := closingLine (ascii "b") ++ List.replicate 249 0) (by decide +kernel) (by decide +kernel)
      (by decide +kernel)
  have hfits : Fits cutAt256 := by unfold Fits; decide +kernel
  have hfits' : Fits cutAt255 := by unfold Fits; decide +kernel
  exact ⟨by decide +kernel,hcalm',(same_scan_iff hfits hfits' (by decide +kernel) hcalm).mpr hcalm'⟩

theorem scan_depends_on_reads : ¬ ∀ (body : BodySize) (boundary : Octets) (headerBytes : ℕ)
    (reads reads' : List Octets),
    body.Documented → (∀ c ∈ boundary, c ∉ crlf) → (∀ chunk ∈ reads ++ reads', chunk ≠ []) →
      reads.flatten = reads'.flatten →
        test body boundary headerBytes reads = test body boundary headerBytes reads' := by
  intro h
  have hsame := h documented (ascii "b") 300 [closingLine (ascii "b"),partLine (ascii "b")]
    [closingLine (ascii "b") ++ partLine (ascii "b")] (fun _ _ => rfl) (by decide +kernel) (by decide) (by decide)
  have hdiffer : test documented (ascii "b") 300 [closingLine (ascii "b"),partLine (ascii "b")] ≠
      test documented (ascii "b") 300 [closingLine (ascii "b") ++ partLine (ascii "b")] := by decide +kernel
  exact hdiffer hsame

end MimeReader
end BeastWebsocketEcho
