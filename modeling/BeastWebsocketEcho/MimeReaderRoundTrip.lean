import BeastWebsocketEcho.MimeReaderScan
import Mathlib.Data.List.Chain

/-!
# What comes back of the documents

A body that `mimeify` made, and that the reads leave as it is, is scanned line by line: whatever
the reads, each part is its document behind the line end of the blank line, which nobody erases.
If the boundary is all dashes, a part line stands in the closing line, and the loop never ends well.
-/

namespace BeastWebsocketEcho
namespace MimeReader

variable {boundary pre octets doc line : Octets} {docs : List Octets} {s t : State} {pos : ℕ}

/-! ## The lines of the text -/

def delimiter (boundary : Octets) : Octets := dashes ++ boundary

theorem delimiter_ne_nil : delimiter boundary ≠ [] := by simp [delimiter,dashes]

theorem delimiter_not_mem_crlf (h : ∀ c ∈ boundary, c ∉ crlf) : ∀ c ∈ delimiter boundary, c ∉ crlf := by
  intro c hc
  rcases List.mem_append.mp hc with hdash | hin
  · have heq : c = 45 := by simpa [dashes] using hdash
    simp [heq,crlf]
  · exact h c hin

theorem partLine_eq : partLine boundary = delimiter boundary ++ crlf := rfl

theorem closingLine_eq : closingLine boundary = delimiter boundary ++ (dashes ++ crlf) := by
  simp [closingLine,delimiter]

theorem clear_zeros (n : ℕ) : Clear (delimiter boundary) (List.replicate n 0) :=
  clear_of_not_mem (by simp [List.mem_replicate])

/-- A delimiter does not begin in a line end. -/
theorem delimiter_infix_crlf_append (h : delimiter boundary <:+: crlf ++ octets) : delimiter boundary <:+: octets := by
  simpa [crlf,delimiter,dashes,List.infix_cons_iff] using h

/-- What stands between the header lines of a part and the next boundary line. -/
theorem clear_part (hboundary : ∀ c ∈ boundary, c ∉ crlf) (hdoc : ¬ delimiter boundary <:+: doc) :
    Clear (delimiter boundary) (crlf ++ doc ++ crlf) :=
  clear_line delimiter_ne_nil crlf_ne_nil (delimiter_not_mem_crlf hboundary)
    fun h => hdoc (delimiter_infix_crlf_append h)

theorem find_crlf (h : (13 : UInt8) ∉ line) : find crlf (line ++ crlf ++ octets) = some line.length :=
  (clear_of_not_mem h).find

/-! ## The last line -/

theorem all_dashes_of_comm (h : dashes ++ boundary = boundary ++ dashes) : ∀ c ∈ boundary, c = 45 := by
  induction boundary with
  | nil => simp
  | cons c cs ih =>
    simp only [dashes,List.cons_append,List.nil_append,List.cons.injEq] at h
    obtain ⟨rfl,htail⟩ := h
    simpa using ih (by simpa [dashes] using htail)

/-- A part line that stands in the closing line shows that the boundary is all dashes. -/
theorem all_dashes_of_closing (hboundary : ∀ c ∈ boundary, c ∉ crlf) {x y z : Octets}
    (h : x ++ partLine boundary ++ y = closingLine boundary ++ z) (hx : x.length ≤ 2) : ∀ c ∈ boundary, c = 45 := by
  have hno : (13 : UInt8) ∉ delimiter boundary := fun hin => delimiter_not_mem_crlf hboundary 13 hin (by simp [crlf])
  have hline : x ++ delimiter boundary ++ crlf ++ y = delimiter boundary ++ dashes ++ crlf ++ z := by
    simpa [partLine_eq,closingLine_eq] using h
  have hx' : (13 : UInt8) ∉ x := by
    have hleft : x <+: delimiter boundary ++ dashes ++ crlf ++ z := by
      rw [← hline]
      simp
    have hright : delimiter boundary ++ dashes <+: delimiter boundary ++ dashes ++ crlf ++ z := by simp
    have hpre : x <+: delimiter boundary ++ dashes := by
      refine List.prefix_of_prefix_length_le hleft hright ?_
      simp only [List.length_append,dashes,List.length_cons,List.length_nil]
      omega
    intro hin
    rcases List.mem_append.mp (hpre.subset hin) with hleft | hright
    · exact hno hleft
    · simp [dashes] at hright
  have hfind : find crlf (x ++ delimiter boundary ++ crlf ++ y) = some (x ++ delimiter boundary).length :=
    find_crlf (by simp [hx',hno])
  have hfind' : find crlf (delimiter boundary ++ dashes ++ crlf ++ z) = some (delimiter boundary ++ dashes).length :=
    find_crlf (by simp [hno,dashes])
  rw [hline,hfind'] at hfind
  have hlength := Option.some.inj hfind
  simp only [List.length_append] at hlength
  have hsame : x ++ delimiter boundary = delimiter boundary ++ dashes := by
    have hlines : (x ++ delimiter boundary) ++ (crlf ++ y) = (delimiter boundary ++ dashes) ++ (crlf ++ z) := by
      simpa using hline
    refine (List.append_inj hlines ?_).1
    simp only [List.length_append]
    omega
  have hdashes : x = dashes ∧ dashes ++ boundary = boundary ++ dashes := by
    refine List.append_inj (by simpa [delimiter] using hsame) ?_
    omega
  exact all_dashes_of_comm hdashes.2

/-- No part line begins in the last line or behind it, if the boundary is not all dashes. -/
theorem find_partLine_last (hboundary : ∀ c ∈ boundary, c ∉ crlf) (hdashes : ∃ c ∈ boundary, c ≠ 45)
    (hclear : Clear (delimiter boundary) pre) (n : ℕ) :
    find (partLine boundary) (pre ++ closingLine boundary ++ List.replicate n 0) = none := by
  by_contra hfound
  obtain ⟨pos,hpos⟩ := Option.ne_none_iff_exists'.mp hfound
  obtain ⟨y,hy,hlength⟩ := find_split hpos
  generalize hx : (pre ++ closingLine boundary ++ List.replicate n 0).take pos = x at hy hlength
  obtain ⟨hhere,-,-⟩ := find_eq_some_iff.mp hpos
  have hafter : pre.length ≤ x.length := by
    by_contra hbefore
    rw [List.append_assoc] at hhere
    exact hclear.append crlf _ pos (by omega) hhere
  have hpre : pre <+: x := by
    have hleft : pre <+: x ++ partLine boundary ++ y := by
      rw [← hy]
      simp
    exact List.prefix_of_prefix_length_le hleft (by simp) hafter
  obtain ⟨x',rfl⟩ := hpre
  have hcut : pre ++ (closingLine boundary ++ List.replicate n 0) = pre ++ (x' ++ partLine boundary ++ y) := by
    simpa using hy
  have hrest := (List.append_cancel_left hcut).symm
  have hsplit : x' ++ delimiter boundary ++ (crlf ++ y) =
      delimiter boundary ++ dashes ++ crlf ++ List.replicate n 0 := by
    simpa [partLine_eq,closingLine_eq] using hrest
  rcases split_separator delimiter_ne_nil crlf_ne_nil (delimiter_not_mem_crlf hboundary) hsplit with
    ⟨z,hin,-⟩ | ⟨z,-,hz⟩
  · have hshort : x'.length ≤ 2 := by
      have hl := congrArg List.length hin
      simp only [List.length_append,dashes,List.length_cons,List.length_nil] at hl
      omega
    obtain ⟨c,hc,hne⟩ := hdashes
    exact hne (all_dashes_of_closing hboundary hrest hshort c hc)
  · have hdash : (45 : UInt8) ∈ List.replicate n (0 : UInt8) := by
      rw [hz]
      simp [delimiter,dashes]
    simp [List.mem_replicate] at hdash

/-! ## The turns on the text -/

theorem turn_partLine (hclear : Clear (delimiter boundary) pre) (hplace : s.place = .nextBoundary)
    (hstore : s.store = pre ++ partLine boundary ++ octets) :
    (orderly boundary).turn s = .goesOn ⟨.nextHeader,octets,s.firstPart,s.emit pre.length⟩ ∧ Calm boundary s := by
  have hpart : find (partLine boundary) s.store = some pre.length := by
    rw [hstore]
    exact (hclear.append crlf).find
  have hlate : ∀ closing, find (closingLine boundary) s.store = some closing → pre.length ≤ closing + 2 := by
    intro closing hclosing
    by_contra hearly
    obtain ⟨hhere,-,-⟩ := find_eq_some_iff.mp hclosing
    rw [hstore,List.append_assoc,closingLine_eq] at hhere
    exact hclear.append _ _ closing (by omega) hhere
  have hfound : searchInOrder boundary s.store = some (.part pre.length) := by
    cases hclosing : find (closingLine boundary) s.store with
    | none => simp [searchInOrder,hpart,hclosing]
    | some closing => simp [searchInOrder,hpart,hclosing,hlate closing hclosing]
  have hdrop : s.store.drop (pre.length + (partLine boundary).length) = octets := by
    rw [hstore,← List.length_append,List.drop_left]
  constructor
  · change turn searchInOrder boundary s = _
    simp only [turn,hplace,hfound,atBoundary,hdrop]
  · intro _ pos closing hpos hclosing
    obtain rfl := Option.some.inj (hpart.symm.trans hpos)
    exact hlate closing hclosing

theorem turn_headerLine (hline : (13 : UInt8) ∉ line) (hne : line ≠ []) (hplace : s.place = .nextHeader)
    (hstore : s.store = line ++ crlf ++ octets) :
    (orderly boundary).turn s = .goesOn { s with store := octets } := by
  obtain ⟨c,cs,rfl⟩ := List.exists_cons_of_ne_nil hne
  have hfound : find crlf s.store = some (cs.length + 1) := by
    rw [hstore]
    exact find_crlf hline
  have hdrop : s.store.drop (cs.length + 1 + 2) = octets := by simp [hstore,crlf]
  change turn searchInOrder boundary s = _
  simp only [turn,hplace,atHeader,hfound,hdrop]

theorem turn_blankLine (hplace : s.place = .nextHeader) (hstore : s.store = crlf ++ octets) :
    (orderly boundary).turn s = .goesOn { s with place := .nextBoundary, firstPart := false } := by
  have hblank : find crlf ([] ++ crlf ++ octets) = some ([] : Octets).length := find_crlf (by simp)
  have hfound : find crlf s.store = some 0 := by
    rw [hstore]
    exact hblank
  change turn searchInOrder boundary s = _
  simp only [turn,hplace,atHeader,hfound]

theorem turn_closingLine (hboundary : ∀ c ∈ boundary, c ∉ crlf) (hdashes : ∃ c ∈ boundary, c ≠ 45)
    (hclear : Clear (delimiter boundary) pre) (hplace : s.place = .nextBoundary) {n : ℕ}
    (hstore : s.store = pre ++ closingLine boundary ++ List.replicate n 0) :
    (orderly boundary).turn s = .ends (s.emit pre.length,.endOfStream) ∧ Calm boundary s := by
  have hpart : find (partLine boundary) s.store = none := by
    rw [hstore]
    exact find_partLine_last hboundary hdashes hclear n
  have hclosing : find (closingLine boundary) s.store = some pre.length := by
    rw [hstore,closingLine_eq]
    exact (hclear.append _).find
  constructor
  · change turn searchInOrder boundary s = _
    simp [turn,hplace,searchInOrder,hpart,hclosing,atBoundary]
  · intro _ pos closing hpos
    cases hpart.symm.trans hpos

/-! ## The run -/

theorem mimeify_cons (boundary doc : Octets) (docs : List Octets) : mimeify boundary (doc :: docs) =
    partLine boundary ++ (ascii "Content-Type: image/jpeg" ++ crlf ++
      (ascii "Content-Length: " ++ decimal doc.length ++ crlf ++ (crlf ++ doc ++ crlf ++ mimeify boundary docs))) := by
  simp [mimeify]

theorem not_mem_decimal (n : ℕ) : (13 : UInt8) ∉ decimal n := by
  intro hin
  unfold decimal at hin
  split at hin
  · simp at hin
  · obtain ⟨d,hd,heq⟩ := List.mem_map.mp hin
    have hlt := Nat.digits_lt_base (by omega) (List.mem_reverse.mp hd)
    interval_cases d <;> simp at heq

/-- What is taken for the previous part is the line before the boundary. -/
theorem part_line (line octets : Octets) : part (line ++ crlf ++ octets) (line ++ crlf).length = line := by
  have hlength : (line ++ crlf).length = line.length + 2 := by simp [crlf]
  simp [part,hlength]

/-- From a boundary on, each document is printed behind the line end that is left of the header, and the loop is
calm. -/
theorem scan_mimeify (hboundary : ∀ c ∈ boundary, c ∉ crlf) (hdashes : ∃ c ∈ boundary, c ≠ 45)
    (hdocs : ∀ doc ∈ docs, ¬ delimiter boundary <:+: doc) (hclear : Clear (delimiter boundary) pre)
    (hplace : s.place = .nextBoundary) {n : ℕ} (hstore : s.store = pre ++ mimeify boundary docs ++ List.replicate n 0) :
    (orderly boundary).scan failed s [] = (s.emit pre.length ++ docs.map (crlf ++ ·),.endOfStream) ∧
      (orderly boundary).Along (Calm boundary) s [] := by
  induction docs generalizing s pre with
  | nil =>
    obtain ⟨hturn,hcalm⟩ := turn_closingLine hboundary hdashes hclear hplace hstore
    constructor
    · rw [Scanner.scan_ends hturn]
      simp
    · exact Scanner.Along.ends hcalm hturn
  | cons doc docs ih =>
    let behind := crlf ++ doc ++ crlf ++ mimeify boundary docs ++ List.replicate n 0
    let second := ascii "Content-Length: " ++ decimal doc.length ++ crlf ++ behind
    let headers : State := ⟨.nextHeader,ascii "Content-Type: image/jpeg" ++ crlf ++ second,s.firstPart,
        s.emit pre.length⟩
    let next : State := ⟨.nextBoundary,behind,false,s.emit pre.length⟩
    have hline : s.store = pre ++ partLine boundary ++ (ascii "Content-Type: image/jpeg" ++ crlf ++ second) := by
      simp [hstore,mimeify_cons,second,behind]
    obtain ⟨hturn,hcalm⟩ := turn_partLine hclear hplace hline
    have htype : (orderly boundary).turn headers = .goesOn { headers with store := second } :=
      turn_headerLine (by decide) (by decide) rfl rfl
    have hlength : (orderly boundary).turn { headers with store := second } =
        .goesOn { headers with store := behind } := by
      have hno : (13 : UInt8) ∉ ascii "Content-Length: " ++ decimal doc.length := by
        simp only [List.mem_append,not_or]
        exact ⟨by decide,not_mem_decimal _⟩
      exact turn_headerLine hno (by simp [ascii]) rfl rfl
    have hbehind : behind = crlf ++ (doc ++ crlf ++ mimeify boundary docs ++ List.replicate n 0) := by simp [behind]
    have hblank : (orderly boundary).turn { headers with store := behind } = .goesOn next := turn_blankLine rfl hbehind
    obtain ⟨hscan,halong⟩ := ih (fun d hd => hdocs d (List.mem_cons_of_mem _ hd))
      (clear_part hboundary (hdocs doc List.mem_cons_self)) (s := next) rfl rfl
    have hemit : next.emit (crlf ++ doc ++ crlf).length = s.emit pre.length ++ [crlf ++ doc] := by
      have hpart : part behind (crlf ++ doc ++ crlf).length = crlf ++ doc := by
        simp only [behind,List.append_assoc (crlf ++ doc ++ crlf)]
        exact part_line _ _
      simp only [State.emit,next,hpart,Bool.false_eq_true,if_false]
    constructor
    · rw [Scanner.scan_goesOn hturn,Scanner.scan_goesOn htype,Scanner.scan_goesOn hlength,Scanner.scan_goesOn hblank,
        hscan,hemit]
      simp
    · have hheader : ∀ octets, Calm boundary { headers with store := octets } := by
        intro octets hplace
        cases hplace
      exact .goesOn hcalm hturn
        (.goesOn (hheader _) htype (.goesOn (hheader _) hlength (.goesOn (hheader _) hblank halong)))

/-! ## The whole of `test` -/

variable {body : BodySize} {reads pieces : List Octets} {headerBytes : ℕ}

theorem shrink_zeros (n k : ℕ) : ∃ m, shrink (grow [] n) n k = List.replicate m 0 := by
  by_cases h : k ≤ n
  · exact ⟨n - (n - k),by simp [shrink,grow,h]⟩
  · exact ⟨0,by simp [shrink,h]⟩

/-- What was there already when nothing was passed over. -/
theorem Calm.of_feed {v : Octets} (h : Calm boundary { s with store := s.store ++ v }) : Calm boundary s :=
  fun hplace pos closing hpart hclosing => h hplace pos closing (find_append hpart v) (find_append hclosing v)

/-- Where the reads leave the body in the store, every document comes back behind a line end. -/
theorem test_mimeify (hboundary : ∀ c ∈ boundary, c ∉ crlf) (hdashes : ∃ c ∈ boundary, c ≠ 45)
    (hdocs : ∀ doc ∈ docs, ¬ delimiter boundary <:+: doc) (hfits : Fits reads) {n : ℕ}
    (hleft : delivered body reads = mimeify boundary docs ++ List.replicate n 0) :
    test body boundary headerBytes reads = (docs.map (crlf ++ ·),.endOfStream) := by
  have hstable := stable_orderly boundary
  have haligned : Aligned (start headerBytes) := by
    intro _ hfirst
    cases hfirst
  obtain ⟨k,hk⟩ := shrink_zeros 256 headerBytes
  have hstore : ((orderly boundary).feed (start headerBytes) (delivered body reads)).store =
      List.replicate k 0 ++ mimeify boundary docs ++ List.replicate n 0 := by
    change headerStore headerBytes ++ delivered body reads = _
    rw [headerStore,hk,hleft,List.append_assoc]
  obtain ⟨hscan,halong⟩ := scan_mimeify hboundary hdashes hdocs (clear_zeros k) rfl hstore
  have hcalm : (reader boundary).Along (Calm boundary) (start headerBytes) (reads.map (left body)) :=
    hstable.along rfl (fun _ h => turn_of_calm h) (fun _ _ h => h.of_feed) haligned halong
  have hsame : test body boundary headerBytes reads =
      (reader boundary).scan failed (start headerBytes) (reads.map (left body)) := loop_eq_scan hfits
  rw [hsame,scan_eq_orderly_iff.mpr hcalm,hstable.scan_eq haligned]
  exact hscan

/-- Where the boundary is all dashes, a part line stands in each closing line. -/
theorem searchBoundary_ne_closing (h : ∀ c ∈ boundary, c = 45) (store : Octets) (pos : ℕ) :
    searchBoundary boundary store ≠ some (.closing pos) := by
  intro hfound
  have hclosing := (sound_searchBoundary boundary store).2 pos hfound
  have hcomm : dashes ++ boundary = boundary ++ dashes := by
    have htwo : dashes = List.replicate 2 45 := rfl
    rw [htwo,List.eq_replicate_of_mem h,List.replicate_append_replicate,List.replicate_append_replicate,Nat.add_comm]
  have hline : closingLine boundary = dashes ++ partLine boundary := by
    simp only [closingLine,partLine,List.append_assoc]
    rw [← List.append_assoc boundary dashes,← hcomm,List.append_assoc]
  have hin : partLine boundary <:+: store := by
    obtain ⟨y,hy,-⟩ := find_split hclosing
    rw [hy,hline]
    exact ⟨store.take pos ++ dashes,y,by simp⟩
  cases hpart : find (partLine boundary) store with
  | none => exact find_eq_none_iff.mp hpart hin
  | some _ => simp [searchBoundary,hpart] at hfound

theorem scan_ne_endOfStream (h : ∀ c ∈ boundary, c = 45) (s : State) (pieces : List Octets) :
    ((reader boundary).scan failed s pieces).2 ≠ .endOfStream := by
  refine (reader boundary).scan_rel (Q := fun _ r => r.2 ≠ .endOfStream)
    (fun _ _ _ _ hr => hr) ?_ (fun _ _ _ _ hr => hr) ?_ s pieces
  · intro s _ hend
    cases hend
  · intro s r hturn
    obtain ⟨pos,-,hfound,-⟩ := turn_ends_cases hturn
    exact absurd hfound (searchBoundary_ne_closing h s.store pos)

/-! ## Reads of one octet -/

/-- No two dashes stand side by side, nor would they if another one came. -/
def Sparse (octets : Octets) : Prop := octets.IsChain (fun a b => a ≠ 45 ∨ b ≠ 45) ∧ ∀ c ∈ octets.getLast?, c ≠ 45

theorem Sparse.find (h : Sparse octets) (line : Octets) : find (45 :: 45 :: line) octets = none := by
  refine find_eq_none_iff.mpr ?_
  rintro ⟨u,v,rfl⟩
  have hchain : (u ++ 45 :: 45 :: (line ++ v)).IsChain (fun a b => a ≠ 45 ∨ b ≠ 45) := by simpa using h.1
  have hpair := (List.isChain_append_cons_cons.mp hchain).2.1
  simp at hpair

theorem Sparse.drop (h : Sparse octets) (n : ℕ) : Sparse (octets.drop n) := by
  refine ⟨h.1.drop n,fun c hc => h.2 c ?_⟩
  rw [List.getLast?_drop] at hc
  split at hc
  · cases hc
  · exact hc

theorem sparse_zeros (n : ℕ) : Sparse (List.replicate n 0) := by
  refine ⟨List.isChain_replicate_of_rel n (by simp),fun c hc => ?_⟩
  have hzero := List.eq_of_mem_replicate (List.mem_of_mem_getLast? hc)
  simp [hzero]

theorem Sparse.append (h : Sparse octets) (c : UInt8) (n : ℕ) : Sparse (octets ++ c :: List.replicate (n + 1) 0) := by
  have hzeros := sparse_zeros (n + 1)
  constructor
  · refine List.isChain_append.mpr ⟨h.1,?_,fun x hx y _ => Or.inl (h.2 x hx)⟩
    refine List.isChain_cons.mpr ⟨fun y hy => Or.inr ?_,hzeros.1⟩
    simp [List.eq_of_mem_replicate (List.mem_of_mem_head? hy)]
  · intro d hd
    refine hzeros.2 d ?_
    simpa [List.getLast?_append,List.getLast?_cons,List.getLast?_replicate] using hd

/-- A loop that is fed octets with zeros behind each of them finds no boundary. -/
theorem scan_sparse (s : State) (pieces : List Octets) : Sparse s.store →
    (∀ piece ∈ pieces, ∃ c n, piece = c :: List.replicate (n + 1) 0) →
      ((reader boundary).scan failed s pieces).2 = .readError := by
  induction s, pieces using (reader boundary).induct with
  | hgo s t pieces hturn ih =>
    intro hsparse hpieces
    rw [Scanner.scan_goesOn hturn]
    refine ih ?_ hpieces
    rcases turn_goesOn_cases hturn with ⟨pos,-,-,rfl⟩ | ⟨-,-,rfl⟩ | ⟨pos,-,-,rfl⟩
    · exact hsparse.drop _
    · exact hsparse
    · exact hsparse.drop _
  | hnil s hturn =>
    intro _ _
    rw [Scanner.scan_starves_nil hturn]
    rfl
  | hcons s piece pieces hturn ih =>
    intro hsparse hpieces
    rw [Scanner.scan_starves hturn]
    obtain ⟨c,n,rfl⟩ := hpieces piece List.mem_cons_self
    exact ih (hsparse.append c n) fun p hp => hpieces p (List.mem_cons_of_mem _ hp)
  | hends s r pieces hturn =>
    intro hsparse _
    obtain ⟨pos,-,hfound,-⟩ := turn_ends_cases hturn
    have hclosing := (sound_searchBoundary boundary s.store).2 pos hfound
    cases (hsparse.find (boundary ++ dashes ++ crlf)).symm.trans hclosing

/-- What a read of up to half the room leaves. -/
theorem left_of_le (hbody : body.Documented) {chunk : Octets} (h : chunk.length ≤ 256) :
    left body chunk = chunk ++ List.replicate (512 - 2 * chunk.length) 0 := by
  have hsize : body.size chunk.length = chunk.length + (512 - 2 * chunk.length) := by
    rw [hbody _ (by omega)]
    omega
  rw [left,hsize,List.take_length_add_append,List.take_replicate]
  congr 2
  omega

theorem left_single (hbody : body.Documented) (c : UInt8) : left body [c] = c :: List.replicate (509 + 1) 0 := by
  have hle : [c].length ≤ 256 := by simp
  exact left_of_le hbody hle

theorem test_single (hbody : body.Documented) (boundary octets : Octets) (headerBytes : ℕ) :
    (test body boundary headerBytes (octets.map fun c => [c])).2 = .readError := by
  have hfits : Fits (octets.map fun c => [c]) := by
    intro chunk hchunk
    obtain ⟨c,-,rfl⟩ := List.mem_map.mp hchunk
    simp
  have hsparse : Sparse (start headerBytes).store := by
    obtain ⟨n,hn⟩ := shrink_zeros 256 headerBytes
    change Sparse (headerStore headerBytes)
    rw [headerStore,hn]
    exact sparse_zeros n
  have hsame : test body boundary headerBytes (octets.map fun c => [c]) =
      (reader boundary).scan failed (start headerBytes) ((octets.map fun c => [c]).map (left body)) :=
        loop_eq_scan hfits
  rw [hsame]
  refine scan_sparse _ _ hsparse fun piece hpiece => ?_
  simp only [List.map_map,List.mem_map,Function.comp_apply] at hpiece
  obtain ⟨c,-,rfl⟩ := hpiece
  exact ⟨c,509,left_single hbody c⟩

theorem crlf_append_ne (doc : Octets) : crlf ++ doc ≠ doc := by
  intro h
  have hlength := congrArg List.length h
  simp only [crlf,List.length_append,List.length_cons,List.length_nil] at hlength
  omega

/-- A body that is left as it is gives its documents back only if there are none; and of no list of documents do all
ways to read it leave it as it is. -/
theorem round_trip_iff (hboundary : ∀ c ∈ boundary, c ∉ crlf) (hdocs : ∀ doc ∈ docs, ¬ delimiter boundary <:+: doc)
    (headerBytes : ℕ) :
    (∀ (body : BodySize) (reads : List Octets), Fits reads →
      (∃ n, delivered body reads = mimeify boundary docs ++ List.replicate n 0) →
        (test body boundary headerBytes reads = (docs,.endOfStream) ↔ docs = [] ∧ ∃ c ∈ boundary, c ≠ 45)) ∧
    ∀ body : BodySize, body.Documented → ¬ ∀ reads : List Octets, (∀ chunk ∈ reads, chunk ≠ []) →
      reads.flatten = mimeify boundary docs → test body boundary headerBytes reads = (docs,.endOfStream) := by
  constructor
  · rintro body reads hfits ⟨n,hleft⟩
    by_cases hdashes : ∃ c ∈ boundary, c ≠ 45
    · rw [test_mimeify hboundary hdashes hdocs hfits hleft]
      cases docs with
      | nil => simpa using hdashes
      | cons doc docs =>
        have hlonger : crlf ++ doc ≠ doc := crlf_append_ne doc
        simp [hlonger]
    · push Not at hdashes
      have hends := scan_ne_endOfStream hdashes (start headerBytes) (reads.map (left body))
      rw [← loop_eq_scan hfits] at hends
      constructor
      · intro hsame
        exact absurd (congrArg Prod.snd hsame) hends
      · rintro ⟨-,c,hc,hne⟩
        exact absurd (hdashes c hc) hne
  · intro body hbody hall
    have hsame := hall ((mimeify boundary docs).map fun c => [c]) (by simp) (List.flatMap_singleton' _)
    have herror := test_single hbody boundary (mimeify boundary docs) headerBytes
    rw [hsame] at herror
    cases herror

theorem round_trip_nothing : test documented (ascii "b") 300 [mimeify (ascii "b") []] = ([],.endOfStream) ∧
    ¬ ∀ reads : List Octets, (∀ chunk ∈ reads, chunk ≠ []) → reads.flatten = mimeify (ascii "b") [] →
      test documented (ascii "b") 300 reads = ([],.endOfStream) := by
  have hdocs : ∀ doc ∈ ([] : List Octets), ¬ delimiter (ascii "b") <:+: doc := by simp
  have h := round_trip_iff (by decide +kernel) hdocs 300
  have hleft : delivered documented [mimeify (ascii "b") []] = mimeify (ascii "b") [] ++ List.replicate 498 0 := by
    decide +kernel
  exact ⟨(h.1 documented [mimeify (ascii "b") []] (by unfold Fits; decide +kernel) ⟨498,hleft⟩).mpr ⟨rfl,by decide⟩,
    h.2 documented fun _ _ => rfl⟩

/-- The line end of the blank line stays before the document. -/
theorem round_trip_fails : ¬ ∀ (body : BodySize) (boundary : Octets) (headerBytes : ℕ) (docs reads : List Octets),
    body.Documented → boundary ≠ [] → (∀ c ∈ boundary, c ∉ crlf ∧ c ≠ 34) →
      (∀ doc ∈ docs, ¬ delimiter boundary <:+: doc) → (∀ chunk ∈ reads, chunk ≠ []) →
        reads.flatten = mimeify boundary docs → test body boundary headerBytes reads = (docs,.endOfStream) := by
  intro h
  have hsame := h documented (ascii "b") 300 [ascii "abc"] [mimeify (ascii "b") [ascii "abc"]] (fun _ _ => rfl)
    (by decide) (by decide +kernel) (by decide +kernel) (by decide +kernel) (by simp)
  have hprinted : test documented (ascii "b") 300 [mimeify (ascii "b") [ascii "abc"]] =
      ([crlf ++ ascii "abc"],.endOfStream) := by decide +kernel
  rw [hprinted] at hsame
  exact crlf_append_ne _ (List.cons.inj (congrArg Prod.fst hsame)).1

end MimeReader
end BeastWebsocketEcho
