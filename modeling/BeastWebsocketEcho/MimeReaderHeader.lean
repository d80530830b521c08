import BeastWebsocketEcho.MimeReaderRoundTrip
import BeastWebsocketEcho.Net
import BeastWebsocketEcho.Regex

/-!
# The header of the MIME reader

`deduce_boundary` matches the content type with two regular expressions, which differ in the quotes
around the boundary and ignore the case of letters. `test` scans for the boundary that it finds there.
-/

namespace BeastWebsocketEcho
namespace MimeReader

def lower (c : UInt8) : UInt8 := if 65 ≤ c ∧ c ≤ 90 then c + 32 else c

/-- `\s`. -/
def isSpace (c : UInt8) : Bool := c = 32 || (9 ≤ c && c ≤ 13)

def quote : UInt8 := 34

/-- `[^"]`. -/
def notQuote (c : UInt8) : Bool := c != quote

/-- The letters of a word, in any case. -/
def icase (letters : Octets) : Regex UInt8 := .word (letters.map fun x c => lower c == lower x)

def name : Octets := ascii "multipart/x-mixed-replace"

def key : Octets := ascii "boundary="

def semicolon : UInt8 := 59

/-- What both expressions begin with. -/
def lead (value : Regex UInt8) : Regex UInt8 :=
  .seq (icase name) (.seq (.many isSpace) (.seq (icase [semicolon]) (.seq (.many isSpace) (.seq (icase key) value))))

def r1 : Regex UInt8 :=
  lead (.seq (icase [quote]) (.seq (.group (.oneOrMore notQuote)) (icase [quote])))

def r2 : Regex UInt8 := lead (.group (.oneOrMore notQuote))

def deduceBoundary (contentType : Octets) : Option Octets :=
  (((r1.fullMatch contentType).or (r2.fullMatch contentType))).bind List.head?

/-! ## What it finds -/

/-- The two ways to write the value. -/
def written (quoted : Bool) (boundary : Octets) : Octets := if quoted then quote :: (boundary ++ [quote]) else boundary

/-- The content type is a name, a semicolon and a key in any case, with spaces around the semicolon, and then the
value. -/
def Shaped (quoted : Bool) (contentType boundary : Octets) : Prop :=
  ∃ w gap gap' k, w.map lower = name.map lower ∧ k.map lower = key.map lower ∧ (∀ c ∈ gap, isSpace c = true) ∧
    (∀ c ∈ gap', isSpace c = true) ∧ contentType = w ++ (gap ++ (semicolon :: (gap' ++ (k ++ written quoted boundary))))

/-- A content type that gives a boundary. -/
structure Gives (contentType boundary : Octets) : Prop where
  ne_nil : boundary ≠ []
  quotes : quote ∉ boundary
  shape : ∃ quoted, Shaped quoted contentType boundary

theorem forall₂_lower_iff {letters w : Octets} :
    List.Forall₂ (fun (p : UInt8 → Bool) c => p c = true) (letters.map fun x c => lower c == lower x) w ↔
      w.map lower = letters.map lower := by
  induction letters generalizing w with
  | nil => simp
  | cons x letters ih =>
    cases w with
    | nil => simp
    | cons c w => simp [ih]

theorem matches_icase_iff {letters w : Octets} {gs : List Octets} :
    (icase letters).Matches w gs ↔ gs = [] ∧ w.map lower = letters.map lower := by
  rw [icase,Regex.matches_word_iff,forall₂_lower_iff]

theorem map_lower_singleton {c : UInt8} {w : Octets} (hc : ∀ d, lower d = lower c ↔ d = c) :
    w.map lower = [c].map lower ↔ w = [c] := by
  cases w with
  | nil => simp
  | cons d w => simp [hc]

theorem lower_quote (d : UInt8) : lower d = lower quote ↔ d = quote := by
  unfold lower quote
  grind

theorem lower_semicolon (d : UInt8) : lower d = lower semicolon ↔ d = semicolon := by
  unfold lower semicolon
  grind

/-- Neither a semicolon nor the first letter of the key is a space. -/
theorem not_isSpace_of_lower {c d : UInt8} (h : lower c = lower d) (hd : 58 ≤ d) : isSpace c = false := by
  unfold lower at h
  unfold isSpace
  grind

def value (contentType : Octets) : Octets :=
  (((((contentType.drop name.length).dropWhile isSpace).drop 1).dropWhile isSpace).drop key.length)

theorem dropWhile_gap {gap w : Octets} {c : UInt8} (hgap : ∀ d ∈ gap, isSpace d = true) (hc : isSpace c = false) :
    (gap ++ (c :: w)).dropWhile isSpace = c :: w := by
  induction gap with
  | nil => simp [hc]
  | cons d gap ih =>
    rw [List.cons_append,List.dropWhile_cons_of_pos (hgap d List.mem_cons_self)]
    exact ih fun e he => hgap e (List.mem_cons_of_mem _ he)

/-- There is only one way to take a content type apart. -/
theorem value_eq {w gap gap' k v : Octets} (hw : w.map lower = name.map lower) (hk : k.map lower = key.map lower)
    (hgap : ∀ c ∈ gap, isSpace c = true) (hgap' : ∀ c ∈ gap', isSpace c = true) :
    value (w ++ (gap ++ (semicolon :: (gap' ++ (k ++ v))))) = v := by
  have hlength : w.length = name.length := by simpa using congrArg List.length hw
  have hlength' : k.length = key.length := by simpa using congrArg List.length hk
  have hsemicolon : isSpace semicolon = false := by decide
  obtain ⟨c,k',rfl,hc⟩ : ∃ c k', k = c :: k' ∧ isSpace c = false := by
    cases k with
    | nil => simp [key,ascii] at hk
    | cons c k' =>
      have hfirst : lower c = lower 98 := (List.cons.inj hk).1
      exact ⟨c,k',rfl,not_isSpace_of_lower hfirst (by decide)⟩
  simp only [value]
  rw [← hlength,List.drop_left,dropWhile_gap hgap hsemicolon,List.drop_one,List.tail_cons,List.cons_append,
    dropWhile_gap hgap' hc,← hlength',← List.cons_append,List.drop_left]

theorem matches_lead_iff {r : Regex UInt8} {contentType : Octets} {gs : List Octets} :
    (lead r).Matches contentType gs ↔ ∃ w gap gap' k v, w.map lower = name.map lower ∧ k.map lower = key.map lower ∧
      (∀ c ∈ gap, isSpace c = true) ∧ (∀ c ∈ gap', isSpace c = true) ∧
        contentType = w ++ (gap ++ (semicolon :: (gap' ++ (k ++ v)))) ∧ r.Matches v gs := by
  simp only [lead,Regex.matches_seq_iff,matches_icase_iff,Regex.matches_many_iff,map_lower_singleton lower_semicolon]
  constructor
  · rintro ⟨w,_,_,_,rfl,rfl,⟨rfl,hw⟩,gap,_,_,_,rfl,rfl,⟨rfl,hgap⟩,_,_,_,_,rfl,rfl,⟨rfl,rfl⟩,gap',_,_,_,rfl,rfl,
      ⟨rfl,hgap'⟩,k,v,_,_,rfl,rfl,⟨rfl,hk⟩,hv⟩
    exact ⟨w,gap,gap',k,v,hw,hk,hgap,hgap',rfl,hv⟩
  · rintro ⟨w,gap,gap',k,v,hw,hk,hgap,hgap',rfl,hv⟩
    exact ⟨w,_,[],gs,rfl,rfl,⟨rfl,hw⟩,gap,_,[],gs,rfl,rfl,⟨rfl,hgap⟩,[semicolon],_,[],gs,rfl,rfl,⟨rfl,rfl⟩,gap',_,[],gs,
      rfl,rfl,⟨rfl,hgap'⟩,k,v,[],gs,rfl,rfl,⟨rfl,hk⟩,hv⟩

theorem matches_boundary_iff {v : Octets} {gs : List Octets} :
    (Regex.group (.oneOrMore notQuote)).Matches v gs ↔ gs = [v] ∧ v ≠ [] ∧ quote ∉ v := by
  have hclass : (∀ c ∈ v, notQuote c = true) ↔ quote ∉ v := by
    simp only [notQuote,bne_iff_ne,ne_eq]
    exact ⟨fun h hmem => h quote hmem rfl,fun h c hc hcq => h (hcq ▸ hc)⟩
  rw [Regex.matches_group_iff]
  simp only [Regex.matches_oneOrMore_iff,hclass]
  constructor
  · rintro ⟨gs',rfl,rfl,hne,hquote⟩
    exact ⟨rfl,hne,hquote⟩
  · rintro ⟨rfl,hne,hquote⟩
    exact ⟨[],rfl,rfl,hne,hquote⟩

theorem matches_quoted_iff {v : Octets} {gs : List Octets} :
    (Regex.seq (icase [quote]) (.seq (.group (.oneOrMore notQuote)) (icase [quote]))).Matches v gs ↔
      ∃ boundary, gs = [boundary] ∧ boundary ≠ [] ∧ quote ∉ boundary ∧ v = written true boundary := by
  simp only [Regex.matches_seq_iff,matches_icase_iff,map_lower_singleton lower_quote,matches_boundary_iff]
  constructor
  · rintro ⟨_,_,_,_,rfl,rfl,⟨rfl,rfl⟩,boundary,_,_,_,rfl,rfl,⟨rfl,hne,hquote⟩,⟨rfl,rfl⟩⟩
    exact ⟨boundary,rfl,hne,hquote,rfl⟩
  · rintro ⟨boundary,rfl,hne,hquote,rfl⟩
    exact ⟨[quote],_,[],[boundary],rfl,rfl,⟨rfl,rfl⟩,boundary,[quote],[boundary],[],rfl,rfl,⟨rfl,hne,hquote⟩,⟨rfl,rfl⟩⟩

section Deduced

variable {contentType boundary boundary' : Octets} {gs : List Octets} {quoted : Bool}

theorem Shaped.value (h : Shaped quoted contentType boundary) : value contentType = written quoted boundary := by
  obtain ⟨w,gap,gap',k,hw,hk,hgap,hgap',rfl⟩ := h
  exact value_eq hw hk hgap hgap'

theorem matches_r1_iff : r1.Matches contentType gs ↔
    ∃ boundary, gs = [boundary] ∧ boundary ≠ [] ∧ quote ∉ boundary ∧ Shaped true contentType boundary := by
  simp only [r1,matches_lead_iff,matches_quoted_iff]
  constructor
  · rintro ⟨w,gap,gap',k,v,hw,hk,hgap,hgap',rfl,boundary,rfl,hne,hquote,rfl⟩
    exact ⟨boundary,rfl,hne,hquote,w,gap,gap',k,hw,hk,hgap,hgap',rfl⟩
  · rintro ⟨boundary,rfl,hne,hquote,w,gap,gap',k,hw,hk,hgap,hgap',rfl⟩
    exact ⟨w,gap,gap',k,_,hw,hk,hgap,hgap',rfl,boundary,rfl,hne,hquote,rfl⟩

theorem matches_r2_iff : r2.Matches contentType gs ↔
    ∃ boundary, gs = [boundary] ∧ boundary ≠ [] ∧ quote ∉ boundary ∧ Shaped false contentType boundary := by
  simp only [r2,matches_lead_iff,matches_boundary_iff]
  constructor
  · rintro ⟨w,gap,gap',k,v,hw,hk,hgap,hgap',rfl,rfl,hne,hquote⟩
    exact ⟨v,rfl,hne,hquote,w,gap,gap',k,hw,hk,hgap,hgap',rfl⟩
  · rintro ⟨boundary,rfl,hne,hquote,w,gap,gap',k,hw,hk,hgap,hgap',rfl⟩
    exact ⟨w,gap,gap',k,_,hw,hk,hgap,hgap',rfl,rfl,hne,hquote⟩

theorem written_inj (h : written quoted boundary = written quoted boundary') : boundary = boundary' := by
  cases quoted with
  | false => exact h
  | true => exact List.append_cancel_right (List.cons.inj h).2

theorem fullMatch_r1_iff : r1.fullMatch contentType = some [boundary] ↔ r1.Matches contentType [boundary] := by
  apply Regex.fullMatch_eq_some_iff
  intro gs gs' h h'
  obtain ⟨b,rfl,-,-,hb⟩ := matches_r1_iff.mp h
  obtain ⟨b',rfl,-,-,hb'⟩ := matches_r1_iff.mp h'
  rw [written_inj (hb.value.symm.trans hb'.value)]

theorem fullMatch_r2_iff : r2.fullMatch contentType = some [boundary] ↔ r2.Matches contentType [boundary] := by
  apply Regex.fullMatch_eq_some_iff
  intro gs gs' h h'
  obtain ⟨b,rfl,-,-,hb⟩ := matches_r2_iff.mp h
  obtain ⟨b',rfl,-,-,hb'⟩ := matches_r2_iff.mp h'
  have hsame : written false b' = written false b := hb'.value.symm.trans hb.value
  rw [written_inj hsame]

/-- A value without quotes is none that stands in quotes. -/
theorem fullMatch_r1_of_unquoted (hquote : quote ∉ boundary) (h : Shaped false contentType boundary) :
    r1.fullMatch contentType = none := by
  apply Regex.fullMatch_eq_none_iff.mpr
  intro gs hgs
  obtain ⟨b,-,-,-,hb⟩ := matches_r1_iff.mp hgs
  have hsame : written true b = boundary := hb.value.symm.trans h.value
  apply hquote
  rw [← hsame]
  exact List.mem_cons_self

theorem gives_of_deduceBoundary (h : deduceBoundary contentType = some boundary) : Gives contentType boundary := by
  cases hfirst : r1.fullMatch contentType with
  | some gs =>
    obtain ⟨b,rfl,hne,hquote,hshape⟩ := matches_r1_iff.mp (Regex.matches_of_fullMatch hfirst)
    obtain rfl : b = boundary := by simpa [deduceBoundary,hfirst] using h
    exact ⟨hne,hquote,true,hshape⟩
  | none =>
    cases hsecond : r2.fullMatch contentType with
    | none => simp [deduceBoundary,hfirst,hsecond] at h
    | some gs =>
      obtain ⟨b,rfl,hne,hquote,hshape⟩ := matches_r2_iff.mp (Regex.matches_of_fullMatch hsecond)
      obtain rfl : b = boundary := by simpa [deduceBoundary,hfirst,hsecond] using h
      exact ⟨hne,hquote,false,hshape⟩

theorem Gives.deduceBoundary (h : Gives contentType boundary) : deduceBoundary contentType = some boundary := by
  obtain ⟨hne,hquote,quoted,hshape⟩ := h
  cases quoted with
  | true =>
    have hfirst := fullMatch_r1_iff.mpr (matches_r1_iff.mpr ⟨boundary,rfl,hne,hquote,hshape⟩)
    simp [MimeReader.deduceBoundary,hfirst]
  | false =>
    have hfirst := fullMatch_r1_of_unquoted hquote hshape
    have hsecond := fullMatch_r2_iff.mpr (matches_r2_iff.mpr ⟨boundary,rfl,hne,hquote,hshape⟩)
    simp [MimeReader.deduceBoundary,hfirst,hsecond]

/-- The boundary that is deduced is the one the content type gives, and there is none only where it gives none. -/
theorem deduces_what_is_given : (∀ boundary, deduceBoundary contentType = some boundary ↔ Gives contentType boundary) ∧
    (deduceBoundary contentType = none ↔ ∀ boundary, ¬ Gives contentType boundary) := by
  refine ⟨fun boundary => ⟨gives_of_deduceBoundary,Gives.deduceBoundary⟩,?_⟩
  rw [Option.eq_none_iff_forall_ne_some]
  exact forall_congr' fun boundary => not_congr ⟨gives_of_deduceBoundary,Gives.deduceBoundary⟩

end Deduced

/-! ## The whole of `test` -/

/-- What the read of the header gives: the content type, and the octets of the body that came with it. -/
structure Header where
  contentType : Octets
  bytes : ℕ

inductive Verdict
  | headerError (e : Error)
  /-- The protocol error of a content type without a boundary. -/
  | notMime
  | scanned (outcome : Outcome)
  deriving DecidableEq

/-- `test`, from the read of the header on. -/
def testSample (body : BodySize) (header : Except Error Header) (reads : List Octets) : Verdict :=
  match header with
  | .error e => .headerError e
  | .ok header =>
    match deduceBoundary header.contentType with
    | none => .notMime
    | some boundary => .scanned (test body boundary header.bytes reads)

/-- Each read but the last brings half the octets that there is room for, and the last one not more. -/
def Halved : List Octets → Prop
  | [] => True
  | [chunk] => chunk.length ≤ 256
  | chunk :: reads => chunk.length = 256 ∧ Halved reads

section Whole

variable {body : BodySize} {header : Header} {boundary : Octets} {docs reads : List Octets}

theorem Halved.fits (h : Halved reads) : Fits reads := by
  induction reads with
  | nil => simp [Fits]
  | cons chunk reads ih =>
    cases reads with
    | nil =>
      have hlength : chunk.length ≤ 256 := h
      simpa [Fits] using hlength.trans (by omega)
    | cons next reads =>
      obtain ⟨hlength,hrest⟩ := h
      exact List.forall_mem_cons.mpr ⟨hlength.le.trans (by omega),ih hrest⟩

/-- Such reads lose nothing, and leave zeros behind the last of them. -/
theorem Halved.delivered (h : Halved reads) (hbody : body.Documented) :
    ∃ n, MimeReader.delivered body reads = reads.flatten ++ List.replicate n 0 := by
  induction reads with
  | nil => exact ⟨0,rfl⟩
  | cons chunk reads ih =>
    cases reads with
    | nil =>
      have hlength : chunk.length ≤ 256 := h
      exact ⟨512 - 2 * chunk.length,by simp [MimeReader.delivered,left_of_le hbody hlength]⟩
    | cons next reads =>
      obtain ⟨hlength,hrest⟩ := h
      obtain ⟨n,hn⟩ := ih hrest
      refine ⟨n,?_⟩
      have hleft : left body chunk = chunk := by simpa [hlength] using left_of_le hbody hlength.le
      unfold MimeReader.delivered at hn ⊢
      rw [List.map_cons,List.flatten_cons,hn,hleft,List.flatten_cons (l := chunk),List.append_assoc]

/-- From the content type on, a body of documents is taken apart into them, each behind a line end, wherever the reads
leave it in the store with zeros behind it; and reads of half the room do. -/
theorem documents_come_back (hgives : Gives header.contentType boundary) (hboundary : ∀ c ∈ boundary, c ∉ crlf)
    (hdashes : ∃ c ∈ boundary, c ≠ 45) (hdocs : ∀ doc ∈ docs, ¬ delimiter boundary <:+: doc) :
    (∀ reads n, Fits reads → delivered body reads = mimeify boundary docs ++ List.replicate n 0 →
      testSample body (.ok header) reads = .scanned (docs.map (crlf ++ ·),.endOfStream)) ∧
    (body.Documented → ∀ reads, Halved reads → reads.flatten = mimeify boundary docs →
      testSample body (.ok header) reads = .scanned (docs.map (crlf ++ ·),.endOfStream)) := by
  have hleaves : ∀ reads n, Fits reads → delivered body reads = mimeify boundary docs ++ List.replicate n 0 →
      testSample body (.ok header) reads = .scanned (docs.map (crlf ++ ·),.endOfStream) := by
    intro reads n hfits hleft
    simp only [testSample,hgives.deduceBoundary]
    rw [test_mimeify hboundary hdashes hdocs hfits hleft]
  refine ⟨hleaves,fun hbody reads hhalved hreads => ?_⟩
  obtain ⟨n,hn⟩ := hhalved.delivered hbody
  rw [hreads] at hn
  exact hleaves reads n hhalved.fits hn

def mainHeader : Header := ⟨ascii "multipart/x-mixed-replace;boundary=\"FrameSeparator\"",0⟩

def mainDocs : List Octets := [ascii "abc",ascii "def"]

/-- A body that takes two reads. -/
def longDocs : List Octets := [ascii "abc",List.replicate 200 97]

def longBody : Octets := mimeify (ascii "FrameSeparator") longDocs

theorem documents_come_back_main :
    testSample documented (.ok mainHeader) [mimeify (ascii "FrameSeparator") mainDocs] =
        .scanned (mainDocs.map (crlf ++ ·),.endOfStream) ∧
      testSample documented (.ok mainHeader) [longBody.take 256,longBody.drop 256] =
        .scanned (longDocs.map (crlf ++ ·),.endOfStream) := by
  have hgives : Gives mainHeader.contentType (ascii "FrameSeparator") := gives_of_deduceBoundary (by decide +kernel)
  have hboundary : ∀ c ∈ ascii "FrameSeparator", c ∉ crlf := by decide +kernel
  have hdashes : ∃ c ∈ ascii "FrameSeparator", c ≠ 45 := by decide +kernel
  have hmain : ∀ doc ∈ mainDocs, ¬ delimiter (ascii "FrameSeparator") <:+: doc := by decide +kernel
  have hlong : ∀ doc ∈ longDocs, ¬ delimiter (ascii "FrameSeparator") <:+: doc := by decide +kernel
  have hhalved : Halved [longBody.take 256,longBody.drop 256] := by
    unfold Halved Halved
    decide +kernel
  constructor
  · exact (documents_come_back hgives hboundary hdashes hmain).1 _ 192 (by unfold Fits; decide +kernel)
      (by decide +kernel)
  · exact (documents_come_back hgives hboundary hdashes hlong).2 (fun _ _ => rfl) _ hhalved (by simp [longBody])

end Whole
end MimeReader
end BeastWebsocketEcho
