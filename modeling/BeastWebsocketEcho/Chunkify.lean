import BeastWebsocketEcho.MimeReaderRoundTrip
import Mathlib.Algebra.BigOperators.Group.List.Basic
import Mathlib.Data.Nat.Digits.Lemmas

/-!
# Chunks

`chunkify` cuts its input into chunks of one length, of which the last one may be shorter, and
writes each of them behind its size. A reader that goes by the sizes does not look into the chunks,
so it finds the input again whatever stands in it.
-/

namespace BeastWebsocketEcho
namespace MimeReader

/-- An `int` as a `std::size_t`. -/
def toSize (i : ℤ) : ℕ := (i % 2 ^ 64).toNat

/-- `(input.size() + (chunks - 1)) / chunks`, where the division by zero is not defined. -/
def chunkLen (chunks : ℤ) (size : ℕ) : ℕ := (size + toSize (chunks - 1)) % 2 ^ 64 / toSize chunks

/-- The loop, for at most `fuel` tests of its condition: the chunks it writes. -/
def chunkLoop (input : Octets) (len : ℕ) : ℕ → ℕ → Option (List Octets)
  | 0, _ => none
  | fuel + 1, pos =>
    if pos < input.length then
      let chunk := (input.drop pos).take len
      (chunkLoop input len fuel (pos + chunk.length)).map (chunk :: ·)
    else some []

def hexDigit (d : ℕ) : UInt8 := UInt8.ofNat (if d < 10 then 48 + d else 87 + d)

def hexadecimal (n : ℕ) : Octets := if n = 0 then [48] else (Nat.digits 16 n).reverse.map hexDigit

def sizeLine (n : ℕ) : Octets := hexadecimal n ++ crlf

/-- What is written for the chunks, and after them. -/
def chunkText (cs : List Octets) : Octets := cs.flatMap (fun c => sizeLine c.length ++ (c ++ crlf)) ++ sizeLine 0

def chunkify (fuel : ℕ) (chunks : ℤ) (input : Octets) : Option Octets :=
  (chunkLoop input (chunkLen chunks input.length) fuel 0).map chunkText

/-! ## The reader of chunks -/

def hexValue (c : UInt8) : Option ℕ :=
  if 48 ≤ c ∧ c ≤ 57 then some (c.toNat - 48)
  else if 97 ≤ c ∧ c ≤ 102 then some (c.toNat - 87)
  else if 65 ≤ c ∧ c ≤ 70 then some (c.toNat - 55)
  else none

def readHex (line : Octets) : Option ℕ :=
  if line = [] then none else (line.mapM hexValue).map fun ds => Nat.ofDigits 16 ds.reverse

/-- At most `fuel` size lines are read: what the chunks hold together, and what is left behind the last line. -/
def decodeIn : ℕ → Octets → Option (Octets × Octets)
  | 0, _ => none
  | fuel + 1, w =>
    (find crlf w).bind fun pos =>
    (readHex (w.take pos)).bind fun size =>
      let rest := w.drop (pos + 2)
      if size = 0 then some ([],rest)
      else if crlf <+: rest.drop size then
        (decodeIn fuel (rest.drop (size + 2))).map fun x => (rest.take size ++ x.1,x.2)
      else none

def decode (w : Octets) : Option (Octets × Octets) := decodeIn (w.length + 1) w

section Sizes

theorem hexValue_hexDigit : ∀ d < 16, hexValue (hexDigit d) = some d := by decide

theorem hexDigit_ne_cr : ∀ d < 16, hexDigit d ≠ 13 := by decide

theorem mapM_hexValue (ds : List ℕ) (h : ∀ d ∈ ds, d < 16) : (ds.map hexDigit).mapM hexValue = some ds := by
  induction ds with
  | nil => rfl
  | cons d ds ih =>
    have hd := hexValue_hexDigit d (h d List.mem_cons_self)
    have hds := ih fun e he => h e (List.mem_cons_of_mem _ he)
    simp [List.mapM_cons,hd,hds]

theorem digits_lt {n d : ℕ} (h : d ∈ (Nat.digits 16 n).reverse) : d < 16 :=
  Nat.digits_lt_base (by norm_num) (List.mem_reverse.mp h)

theorem readHex_hexadecimal (n : ℕ) : readHex (hexadecimal n) = some n := by
  by_cases hn : n = 0
  · subst hn
    decide
  · have hne : (Nat.digits 16 n).reverse.map hexDigit ≠ [] := by simpa [Nat.digits_ne_nil_iff_ne_zero] using hn
    have hdigits := mapM_hexValue (Nat.digits 16 n).reverse fun d hd => digits_lt hd
    simp only [readHex,hexadecimal,hn,if_false,hne,hdigits,Option.map_some,List.reverse_reverse,Nat.ofDigits_digits]

theorem cr_not_mem_hexadecimal (n : ℕ) : (13 : UInt8) ∉ hexadecimal n := by
  unfold hexadecimal
  split
  · decide
  · intro hmem
    obtain ⟨d,hd,heq⟩ := List.mem_map.mp hmem
    exact hexDigit_ne_cr d (digits_lt hd) heq

theorem find_sizeLine (n : ℕ) (rest : Octets) : find crlf (sizeLine n ++ rest) = some (hexadecimal n).length :=
  find_crlf (cr_not_mem_hexadecimal n)

end Sizes

/-! ## Reading what was written -/

theorem decodeIn_end (fuel : ℕ) (rest : Octets) : decodeIn (fuel + 1) (sizeLine 0 ++ rest) = some ([],rest) := by
  have hline : (sizeLine 0 ++ rest).take (hexadecimal 0).length = hexadecimal 0 := by simp [sizeLine]
  have hrest : (sizeLine 0 ++ rest).drop ((hexadecimal 0).length + 2) = rest := by simp [sizeLine,crlf]
  simp [decodeIn,find_sizeLine,hline,hrest,readHex_hexadecimal]

theorem decodeIn_chunk (fuel : ℕ) {c : Octets} (hc : c ≠ []) (rest : Octets) :
    decodeIn (fuel + 1) (sizeLine c.length ++ (c ++ crlf) ++ rest) =
      (decodeIn fuel rest).map fun x => (c ++ x.1,x.2) := by
  have hsize : c.length ≠ 0 := by simpa using hc
  have hfind := find_sizeLine c.length (c ++ crlf ++ rest)
  have hline : (sizeLine c.length ++ (c ++ crlf ++ rest)).take (hexadecimal c.length).length =
      hexadecimal c.length := by
    simp [sizeLine]
  have hrest : (sizeLine c.length ++ (c ++ crlf ++ rest)).drop ((hexadecimal c.length).length + 2) =
      c ++ crlf ++ rest := by simp [sizeLine,crlf]
  have hend : crlf <+: (c ++ crlf ++ rest).drop c.length := by simp
  have hnext : (c ++ crlf ++ rest).drop (c.length + 2) = rest := by simp [crlf]
  have htake : (c ++ crlf ++ rest).take c.length = c := by simp
  rw [List.append_assoc]
  simp only [decodeIn,hfind,Option.bind_some,hline,readHex_hexadecimal,hrest,hsize,if_false,hend,if_true,hnext,htake]

theorem decodeIn_chunkText {cs : List Octets} (h : [] ∉ cs) {fuel : ℕ} (hfuel : cs.length < fuel) :
    decodeIn fuel (chunkText cs) = some (cs.flatten,[]) := by
  induction cs generalizing fuel with
  | nil =>
    obtain ⟨fuel,rfl⟩ := Nat.exists_eq_add_of_lt hfuel
    simpa [chunkText] using decodeIn_end (0 + fuel) []
  | cons c cs ih =>
    cases fuel with
    | zero => simp at hfuel
    | succ fuel =>
      have hc : c ≠ [] := fun hnil => h (hnil ▸ List.mem_cons_self)
      have hrest : decodeIn fuel (chunkText cs) = some (cs.flatten,[]) :=
        ih (fun hmem => h (List.mem_cons_of_mem _ hmem)) (by simpa using hfuel)
      have htext : chunkText (c :: cs) = sizeLine c.length ++ (c ++ crlf) ++ chunkText cs := by simp [chunkText]
      rw [htext,decodeIn_chunk fuel hc,hrest]
      rfl

theorem length_lt_chunkText (cs : List Octets) : cs.length < (chunkText cs).length := by
  induction cs with
  | nil => simp [chunkText,sizeLine,crlf]
  | cons c cs ih =>
    have htext : chunkText (c :: cs) = sizeLine c.length ++ (c ++ crlf) ++ chunkText cs := by simp [chunkText]
    simp only [htext,List.length_append,List.length_cons,crlf,sizeLine]
    omega

theorem decode_chunkText {cs : List Octets} (h : [] ∉ cs) : decode (chunkText cs) = some (cs.flatten,[]) :=
  decodeIn_chunkText h (Nat.lt_succ_of_lt (length_lt_chunkText cs))

/-! ## The chunks -/

/-- The pieces of `w`: none is empty, and all but the last one are of length `len`. -/
structure Cut (len : ℕ) (w : Octets) (cs : List Octets) : Prop where
  flatten : cs.flatten = w
  nonempty : [] ∉ cs
  equal : ∀ c ∈ cs.dropLast, c.length = len

namespace Cut

variable {len : ℕ} {w : Octets} {cs : List Octets}

theorem nil (len : ℕ) : Cut len [] [] := ⟨rfl,by simp,by simp⟩

theorem cons (h : Cut len (w.drop len) cs) (hlen : 0 < len) (hw : w ≠ []) : Cut len w (w.take len :: cs) where
  flatten := by rw [List.flatten_cons,h.flatten,List.take_append_drop]
  nonempty := by
    rw [List.mem_cons,not_or]
    refine ⟨fun hnil => ?_,h.nonempty⟩
    rcases List.take_eq_nil_iff.mp hnil.symm with hzero | hempty
    · exact hlen.ne' hzero
    · exact hw hempty
  equal c hc := by
    cases cs with
    | nil => simp at hc
    | cons d ds =>
      rw [List.dropLast_cons_cons,List.mem_cons] at hc
      rcases hc with rfl | hc
      · -- There is a chunk behind this one, so it is not the rest of the input.
        have hd : d ≠ [] := fun hnil => h.nonempty (hnil ▸ List.mem_cons_self)
        have hbehind : w.drop len ≠ [] := by
          rw [← h.flatten]
          simp [hd]
        have hlonger : len < w.length := by simpa using hbehind
        simp [hlonger.le]
      · exact h.equal c hc

theorem count (h : Cut len w cs) (hcs : cs ≠ []) : (cs.length - 1) * len < w.length := by
  have hlast : cs.getLast hcs ≠ [] := fun hnil => h.nonempty (hnil ▸ List.getLast_mem hcs)
  have hpos : 0 < (cs.getLast hcs).length := List.length_pos_iff.mpr hlast
  have hequal : ∀ n ∈ cs.dropLast.map List.length, n = len := by
    intro n hn
    obtain ⟨c,hc,rfl⟩ := List.mem_map.mp hn
    exact h.equal c hc
  have hlength : w.length = (cs.dropLast.map List.length).sum + (cs.getLast hcs).length := by
    conv_lhs => rw [← h.flatten,← List.dropLast_append_getLast hcs]
    simp
  rw [hlength,List.sum_eq_card_nsmul _ len hequal]
  simp only [List.length_map,List.length_dropLast,smul_eq_mul]
  omega

end Cut

theorem toSize_natCast {k : ℕ} (h : k < 2 ^ 64) : toSize k = k := by
  unfold toSize
  omega

/-- The length that is computed is the quotient, rounded up. -/
theorem chunkLen_eq {k size : ℕ} (hk : 1 ≤ k) (hsize : 1 ≤ size) (hbound : size + k - 1 < 2 ^ 64) :
    chunkLen k size = (size + (k - 1)) / k := by
  have hminus : toSize ((k : ℤ) - 1) = k - 1 := by
    unfold toSize
    omega
  rw [chunkLen,hminus,toSize_natCast (by omega),Nat.mod_eq_of_lt (by omega)]

theorem chunkLen_pos {k size : ℕ} (hk : 1 ≤ k) (hsize : 1 ≤ size) : 0 < (size + (k - 1)) / k :=
  Nat.div_pos (by omega) hk

theorem le_mul_chunkLen {k : ℕ} (hk : 1 ≤ k) (size : ℕ) : size ≤ (size + (k - 1)) / k * k := by
  have h := Nat.lt_div_mul_add (a := size + (k - 1)) hk
  omega

/-- As long as octets are left, a chunk is taken, so the loop comes to its end. -/
theorem chunkLoop_cut (input : Octets) {len : ℕ} (hlen : 0 < len) (pos : ℕ) : ∃ cs, Cut len (input.drop pos) cs ∧
    ∀ fuel, input.length - pos < fuel → chunkLoop input len fuel pos = some cs := by
  induction hleft : input.length - pos using Nat.strong_induction_on generalizing pos with
  | _ left ih =>
    by_cases hpos : pos < input.length
    · have hchunk : pos + ((input.drop pos).take len).length = pos + min len (input.length - pos) := by simp
      obtain ⟨cs,hcut,hloop⟩ := ih _ (by omega) (pos + min len (input.length - pos)) rfl
      have hdrop : input.drop (pos + min len (input.length - pos)) = (input.drop pos).drop len := by
        rw [List.drop_drop]
        by_cases hall : len ≤ input.length - pos
        · rw [Nat.min_eq_left hall]
        · rw [List.drop_of_length_le (by omega),List.drop_of_length_le (by omega)]
      rw [hdrop] at hcut
      refine ⟨_,hcut.cons hlen (by simpa using hpos),fun fuel hfuel => ?_⟩
      cases fuel with
      | zero => omega
      | succ fuel =>
        have hrest := hloop fuel (by omega)
        simp only [chunkLoop,hpos,if_true,hchunk,hrest,Option.map_some]
    · have hnil : input.drop pos = [] := List.drop_of_length_le (by omega)
      refine ⟨[],hnil ▸ Cut.nil len,fun fuel hfuel => ?_⟩
      cases fuel with
      | zero => omega
      | succ fuel => simp [chunkLoop,hpos]

/-- The loop ends, writes no more chunks than it was asked for, and what it writes is read as the input, whatever stands
in it. -/
theorem chunkify_lossless (chunks : ℤ) (input : Octets) (hchunks : 1 ≤ chunks)
    (hsize : input.length + chunks - 1 < 2 ^ 64) :
    ∃ cs : List Octets, (∀ fuel, input.length < fuel →
        chunkLoop input (chunkLen chunks input.length) fuel 0 = some cs ∧
        chunkify fuel chunks input = some (chunkText cs)) ∧
      cs.length ≤ chunks ∧ [] ∉ cs ∧ (∀ c ∈ cs.dropLast, c.length = chunkLen chunks input.length) ∧
      decode (chunkText cs) = some (input,[]) := by
  obtain ⟨k,rfl⟩ : ∃ k : ℕ, chunks = k := ⟨chunks.toNat,by omega⟩
  have hk : 1 ≤ k := by omega
  have hexists : ∃ cs, Cut (chunkLen k input.length) input cs ∧ (cs.length ≤ k) ∧
      ∀ fuel, input.length < fuel → chunkLoop input (chunkLen k input.length) fuel 0 = some cs := by
    by_cases hinput : input = []
    · subst hinput
      refine ⟨[],Cut.nil _,by simp,fun fuel hfuel => ?_⟩
      cases fuel with
      | zero => simp at hfuel
      | succ fuel => simp [chunkLoop]
    · have hpos : 1 ≤ input.length := List.length_pos_iff.mpr hinput
      rw [chunkLen_eq hk hpos (by omega)]
      obtain ⟨cs,hcut,hloop⟩ := chunkLoop_cut input (chunkLen_pos hk hpos) 0
      refine ⟨cs,hcut,?_,hloop⟩
      by_cases hcs : cs = []
      · simp [hcs]
      · have hfill : (cs.length - 1) * ((input.length + (k - 1)) / k) < input.length := hcut.count hcs
        have hcover := le_mul_chunkLen hk input.length
        have hless : cs.length - 1 < k := by
          rw [Nat.mul_comm _ k] at hcover
          exact lt_of_mul_lt_mul_right (hfill.trans_le hcover) (Nat.zero_le _)
        omega
  obtain ⟨cs,hcut,hcount,hloop⟩ := hexists
  refine ⟨cs,fun fuel hfuel => ⟨hloop fuel hfuel,?_⟩,by exact_mod_cast hcount,hcut.nonempty,hcut.equal,?_⟩
  · simp only [chunkify,hloop fuel hfuel,Option.map_some]
  · rw [decode_chunkText hcut.nonempty,hcut.flatten]

theorem chunkify_lossless_sizeLines : (chunkLoop (ascii "0\r\n1\r\n") (chunkLen 4 6) 7 0).map List.length = some 3 ∧
    ∃ cs : List Octets, cs.length ≤ (4 : ℤ) ∧ decode (chunkText cs) = some (ascii "0\r\n1\r\n",[]) := by
  refine ⟨by decide +kernel,?_⟩
  obtain ⟨cs,-,hcount,-,-,hdecode⟩ := chunkify_lossless 4 (ascii "0\r\n1\r\n") (by decide) (by decide +kernel)
  exact ⟨cs,hcount,hdecode⟩

end MimeReader
end BeastWebsocketEcho
