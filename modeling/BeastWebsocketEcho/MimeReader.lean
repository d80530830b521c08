import BeastWebsocketEcho.Pattern
import BeastWebsocketEcho.Scanner
import Mathlib.Data.Nat.Digits.Defs

/-!
# The MIME reader

`mimeify` and the scanner of `test`, from the boundary on: a loop over `work_store` that looks for
the next boundary line, then goes over the header lines of a part. A read that finds octets puts
them behind the store; how many of them `outbuf.shrink` leaves there is decided by what the
library says in `body().size`.
-/

namespace BeastWebsocketEcho
namespace MimeReader

abbrev Octets := List UInt8

def ascii (s : String) : Octets := s.toList.map fun c => UInt8.ofNat c.toNat

def crlf : Octets := [13,10]

def dashes : Octets := [45,45]

/-- `"--" + *boundary + "\r\n"`. -/
def partLine (boundary : Octets) : Octets := dashes ++ boundary ++ crlf

/-- `"--" + *boundary + "--\r\n"`. -/
def closingLine (boundary : Octets) : Octets := dashes ++ boundary ++ dashes ++ crlf

/-- A size as `operator<<` writes it. -/
def decimal (n : ℕ) : Octets :=
  if n = 0 then [48] else ((Nat.digits 10 n).reverse.map fun d => UInt8.ofNat (48 + d))

def mimeify (boundary : Octets) (docs : List Octets) : Octets :=
  docs.flatMap (fun doc =>
    partLine boundary ++ (ascii "Content-Type: image/jpeg" ++ crlf) ++
      (ascii "Content-Length: " ++ decimal doc.length ++ crlf) ++ crlf ++ (doc ++ crlf)) ++
    closingLine boundary

/-! ## The store -/

def grow (store : Octets) (n : ℕ) : Octets := store ++ List.replicate n 0

/-- `outbuf.shrink(n - k)`. A difference that wraps is more than there is, and clears the store. -/
def shrink (store : Octets) (n k : ℕ) : Octets := if k ≤ n then store.take (store.length - (n - k)) else []

/-- What `parser.get().body().size` says when the read has put `n` octets into the 512 that it was given. -/
structure BodySize where
  size : ℕ → ℕ
  size_le : ∀ n, size n ≤ 512

/-- As `buffer_body` documents it: the size that is left. -/
def BodySize.Documented (body : BodySize) : Prop := ∀ n ≤ 512, body.size n = 512 - n

/-- One read of `chunk` into the last 512 octets of the grown store. -/
def receive (body : BodySize) (store chunk : Octets) : Octets :=
  let grown := grow store 512
  let filled := grown.take (grown.length - 512) ++ chunk ++ grown.drop (grown.length - 512 + chunk.length)
  shrink filled 512 (body.size chunk.length)

/-- The store after the header was read, of which the parser has consumed `headerBytes`. -/
def headerStore (headerBytes : ℕ) : Octets := shrink (grow [] 256) 256 headerBytes

/-! ## The scanner -/

inductive Place
  | nextBoundary | nextHeader
  deriving DecidableEq, Repr

/-- The variables of the loop, and the parts that were printed. -/
structure State where
  place : Place
  store : Octets
  firstPart : Bool
  parts : List Octets
  deriving DecidableEq

/-- How `test` ends: with no error, with the error of a read, or because a read found more than there was room for. -/
inductive Result
  | endOfStream | readError | needBuffer
  deriving DecidableEq, Repr

abbrev Outcome := List Octets × Result

inductive Boundary
  | part (pos : ℕ)
  | closing (pos : ℕ)
  deriving DecidableEq, Repr

def searchBoundary (boundary store : Octets) : Option Boundary :=
  match find (partLine boundary) store with
  | some pos => some (.part pos)
  | none => (find (closingLine boundary) store).map .closing

/-- `work_store.substr(0, boundary_pos - 2)`, where a difference that wraps takes everything. -/
def part (store : Octets) (pos : ℕ) : Octets := if pos < 2 then store else store.take (pos - 2)

/-- The previous part is printed, if there is one. -/
def State.emit (s : State) (pos : ℕ) : List Octets :=
  if s.firstPart then s.parts else s.parts ++ [part s.store pos]

/-- What is done about the boundary that was found. -/
def atBoundary (boundary : Octets) (s : State) : Option Boundary → Turn State Outcome
  | none => .starves
  | some (.part pos) =>
    .goesOn { s with
      place := .nextHeader
      store := s.store.drop (pos + (partLine boundary).length)
      parts := s.emit pos }
  | some (.closing pos) => .ends (s.emit pos,.endOfStream)

def atHeader (s : State) : Turn State Outcome :=
  match find crlf s.store with
  | none => .starves
  | some 0 => .goesOn { s with place := .nextBoundary, firstPart := false }
  | some (pos + 1) => .goesOn { s with store := s.store.drop (pos + 1 + 2) }

def turn (search : Octets → Octets → Option Boundary) (boundary : Octets) (s : State) : Turn State Outcome :=
  match s.place with
  | .nextBoundary => atBoundary boundary s (search boundary s.store)
  | .nextHeader => atHeader s

@[simp] theorem length_partLine (boundary : Octets) : (partLine boundary).length = boundary.length + 4 := by
  simp [partLine,dashes,crlf]

@[simp] theorem length_closingLine (boundary : Octets) : (closingLine boundary).length = boundary.length + 6 := by
  simp [closingLine,dashes,crlf]

theorem crlf_ne_nil : crlf ≠ [] := by simp [crlf]

def Sound (search : Octets → Octets → Option Boundary) : Prop :=
  ∀ boundary store,
    (∀ pos, search boundary store = some (.part pos) → find (partLine boundary) store = some pos) ∧
    ∀ pos, search boundary store = some (.closing pos) → find (closingLine boundary) store = some pos

theorem sound_searchBoundary : Sound searchBoundary := by
  intro boundary store
  cases hpart : find (partLine boundary) store <;> simp [searchBoundary,hpart]

section Turns

variable {search : Octets → Octets → Option Boundary} {boundary : Octets} {s t : State} {r : Outcome}

/-- A pass that goes on is behind a part line, at the end of the header, or behind a header line. -/
theorem turn_goesOn_cases (h : turn search boundary s = .goesOn t) :
    (∃ pos, s.place = .nextBoundary ∧ search boundary s.store = some (.part pos) ∧ t = { s with
      place := .nextHeader, store := s.store.drop (pos + (partLine boundary).length), parts := s.emit pos }) ∨
    (s.place = .nextHeader ∧ find crlf s.store = some 0 ∧ t = { s with place := .nextBoundary, firstPart := false }) ∨
    ∃ pos, s.place = .nextHeader ∧ find crlf s.store = some (pos + 1) ∧
      t = { s with store := s.store.drop (pos + 1 + 2) } := by
  unfold turn at h
  cases hplace : s.place with
  | nextBoundary =>
    simp only [hplace] at h
    cases hfound : search boundary s.store with
    | none => simp [hfound,atBoundary] at h
    | some found =>
      cases found with
      | closing pos => simp [hfound,atBoundary] at h
      | part pos =>
        simp only [hfound,atBoundary,Turn.goesOn.injEq] at h
        exact Or.inl ⟨pos,rfl,rfl,h.symm⟩
  | nextHeader =>
    simp only [hplace,atHeader] at h
    cases hfound : find crlf s.store with
    | none => simp [hfound] at h
    | some pos =>
      cases pos with
      | zero =>
        simp only [hfound,Turn.goesOn.injEq] at h
        exact Or.inr (Or.inl ⟨rfl,rfl,h.symm⟩)
      | succ pos =>
        simp only [hfound,Turn.goesOn.injEq] at h
        exact Or.inr (Or.inr ⟨pos,rfl,rfl,by simpa [hplace] using h.symm⟩)

/-- A pass that ends is at a closing line. -/
theorem turn_ends_cases (h : turn search boundary s = .ends r) :
    ∃ pos, s.place = .nextBoundary ∧ search boundary s.store = some (.closing pos) ∧ r = (s.emit pos,.endOfStream) := by
  unfold turn at h
  cases hplace : s.place with
  | nextBoundary =>
    simp only [hplace] at h
    cases hfound : search boundary s.store with
    | none => simp [hfound,atBoundary] at h
    | some found =>
      cases found with
      | part pos => simp [hfound,atBoundary] at h
      | closing pos =>
        simp only [hfound,atBoundary,Turn.ends.injEq] at h
        exact ⟨pos,rfl,rfl,h.symm⟩
  | nextHeader =>
    simp only [hplace,atHeader] at h
    split at h <;> cases h

/-- Every pass takes octets from the store, or leaves the header. -/
def State.left (s : State) : ℕ :=
  2 * s.store.length + match s.place with
    | .nextBoundary => 0
    | .nextHeader => 1

theorem turn_goesOn_lt (hsound : Sound search) (h : turn search boundary s = .goesOn t) : t.left < s.left := by
  rcases turn_goesOn_cases h with ⟨pos,hplace,hfound,rfl⟩ | ⟨hplace,-,rfl⟩ | ⟨pos,hplace,hfound,rfl⟩
  · have hlength := find_length ((hsound boundary s.store).1 pos hfound)
    simp only [length_partLine] at hlength
    simp only [State.left,hplace,List.length_drop,length_partLine]
    omega
  · simp [State.left,hplace]
  · have hlength := find_length hfound
    simp only [crlf,List.length_cons,List.length_nil] at hlength
    simp only [State.left,hplace,List.length_drop]
    omega

end Turns

/-- The loop with a search, as a scanner whose store is its buffer. -/
def scanner (search : Octets → Octets → Option Boundary) (hsound : Sound search) (boundary : Octets) :
    Scanner State UInt8 Outcome where
  turn := turn search boundary
  feed s octets := { s with store := s.store ++ octets }
  left := State.left
  goesOn_lt := turn_goesOn_lt hsound

def reader (boundary : Octets) : Scanner State UInt8 Outcome := scanner searchBoundary sound_searchBoundary boundary

/-- The loop, with the reads that find the body; when they are used up the next one fails. -/
def loop (body : BodySize) (boundary : Octets) : State → List Octets → Outcome
  | s, [] =>
    match (reader boundary).settle s with
    | .inl t => (t.parts,.readError)
    | .inr r => r
  | s, chunk :: reads =>
    match (reader boundary).settle s with
    | .inl t =>
      if chunk.length ≤ 512 then loop body boundary { t with store := receive body t.store chunk } reads
      else (t.parts,.needBuffer)
    | .inr r => r

/-- `test`, from the header on: the parts it prints, and how it ends. -/
def test (body : BodySize) (boundary : Octets) (headerBytes : ℕ) (reads : List Octets) : Outcome :=
  loop body boundary ⟨.nextBoundary,headerStore headerBytes,true,[]⟩ reads

end MimeReader
end BeastWebsocketEcho
