import BeastWebsocketEcho.Chronicle
import BeastWebsocketEcho.Console

/-!
# Every line once, and one completion

What has arrived is the lines that were examined and the store behind them. The operation has one
read in flight until it ends, and it ends with the line behind which it should: at a command, or
after an error or a cancellation.
-/

namespace BeastWebsocketEcho
namespace Console

namespace Event

@[simp] def examined? : Event → Option Text
  | .examined line => some line
  | _ => none

@[simp] def arrived? : Event → Option Text
  | .arrived chunk => some chunk
  | _ => none

@[simp] def completed? : Event → Option ErrorCode
  | .completed ec _ _ _ => some ec
  | _ => none

@[simp] def failure? : Event → Option Error
  | .resumed (some e) => some e
  | _ => none

end Event

def examined (log : List Event) : List Text := log.filterMap Event.examined?
def received (log : List Event) : Text := (log.filterMap Event.arrived?).flatten
def completions (log : List Event) : List ErrorCode := log.filterMap Event.completed?
def failures (log : List Event) : List Error := log.filterMap Event.failure?

section Logs

variable (l k : List Event) (e : Event)

@[simp] theorem examined_append : examined (l ++ k) = examined l ++ examined k := List.filterMap_append
@[simp] theorem received_append : received (l ++ k) = received l ++ received k := by simp [received]
@[simp] theorem completions_append : completions (l ++ k) = completions l ++ completions k := List.filterMap_append
@[simp] theorem failures_append : failures (l ++ k) = failures l ++ failures k := List.filterMap_append

@[simp] theorem examined_nil : examined [] = [] := rfl
@[simp] theorem received_nil : received [] = [] := rfl
@[simp] theorem completions_nil : completions [] = [] := rfl
@[simp] theorem failures_nil : failures [] = [] := rfl

@[simp] theorem examined_cons : examined (e :: l) = e.examined?.toList ++ examined l := filterMap_cons_toList _ _ _
@[simp] theorem received_cons : received (e :: l) = e.arrived?.getD [] ++ received l := by
  unfold received
  rw [filterMap_cons_toList]
  cases e.arrived? <;> simp
@[simp] theorem completions_cons : completions (e :: l) = e.completed?.toList ++ completions l :=
  filterMap_cons_toList _ _ _
@[simp] theorem failures_cons : failures (e :: l) = e.failure?.toList ++ failures l := filterMap_cons_toList _ _ _

end Logs

def Disturbed (log : List Event) : Prop := .cancelled ∈ log ∨ failures log ≠ []

/-- The operation should end behind this line. -/
def Stops (before : List Event) (line : Text) : Prop := command line = true ∨ Disturbed before

/-- The handler is invoked at once behind the line that stops the operation, outside `async_run` and with the pointer
cleared, and then nothing is examined any more. -/
structure Lawful (before : List Event) (e : Event) : Prop where
  next : ∀ earlier line, before = earlier ++ [.examined line] → (Stops earlier line ↔ e.completed?.isSome = true)
  first : ∀ line, e = .examined line → completions before = []
  completed : ∀ ec event inside cleared, e = .completed ec event inside cleared →
    completions before = [] ∧ inside = false ∧ cleared = true ∧
      ∃ earlier line, before = earlier ++ [.examined line] ∧ (ec = none ↔ command line = true ∧ ¬ Disturbed earlier)

/-- A log that does not end where the handler should have been invoked. -/
def Settled (log : List Event) : Prop := ∀ earlier line, log = earlier ++ [.examined line] → ¬ Stops earlier line

theorem settled_snoc {log : List Event} {e : Event} (he : e.examined? = none) : Settled (log ++ [e]) := by
  intro earlier line h
  obtain ⟨-,hlast⟩ := List.append_inj' h rfl
  obtain rfl : e = .examined line := by simpa using hlast
  cases he

/-- An event that is neither a line nor the completion is lawful wherever nothing is due. -/
theorem lawful_of_settled {log : List Event} {e : Event} (h : Settled log) (hexamined : e.examined? = none)
    (hcompleted : e.completed? = none) : Lawful log e where
  next earlier line hlog := by
    rw [hcompleted]
    exact iff_of_false (h earlier line hlog) (by decide)
  first line he := by
    subst he
    cases hexamined
  completed ec event inside cleared he := by
    subst he
    cases hcompleted

inductive Phase (s : State) : Prop
  | fresh (hstage : s.stage ≠ .returned) (hpoint : s.point = .start) (hec : s.ec = none) (hreads : s.reads = [])
      (hstore : s.rxstore = []) (hlog : s.log = [])
      (hquiet : s.stage = .before → s.runOp = false ∧ s.loaded = 0 ∧ s.tasks = [])
  | reading (r : Status (Except Error ℕ)) (hstage : s.stage = .returned) (hpoint : s.point = .reading)
      (hreads : s.reads = [r]) (hresult : ∀ n, r = .done (.ok n) → lineLength s.rxstore = some n)
      (hcompletions : completions s.log = []) (hfailures : failures s.log = [])
  | ended (hstage : s.stage = .returned) (hpoint : s.point = .ended) (hreads : s.reads = [])
      (hcompletions : (completions s.log).length = 1) (hfailures : (failures s.log).length ≤ 1)

/-- What has arrived was examined, line by line, or is still in the store. -/
def Streamed (s : State) : Prop :=
  ∃ ls : List Text, (∀ l ∈ ls, IsLine '\n' l) ∧ received s.log = ls.flatten ++ s.rxstore ∧
    examined s.log = ls ++ (failures s.log).map fun _ => []

structure Sound (s : State) : Prop where
  phase : Phase s
  streamed : Streamed s
  error : s.ec = none ↔ ¬ Disturbed s.log
  lawful : Chronicle Lawful s.log
  settled : Settled s.log

theorem streamed_of_nil {s : State} (hstore : s.rxstore = []) (hlog : s.log = []) : Streamed s :=
  ⟨[],by simp,by simp [hstore,hlog],by simp [hlog]⟩

theorem sound_of_nil {s : State} (h : Phase s) (hstore : s.rxstore = []) (hec : s.ec = none) (hlog : s.log = []) :
    Sound s where
  phase := h
  streamed := streamed_of_nil hstore hlog
  error := by simp [hec,hlog,Disturbed]
  lawful := by
    rw [hlog]
    exact Chronicle.nil
  settled := by
    rw [hlog]
    intro earlier line h
    simp at h

theorem sound_init : Sound State.init :=
  sound_of_nil (Phase.fresh (by decide) rfl rfl rfl rfl rfl fun _ => ⟨rfl,rfl,rfl⟩) rfl rfl rfl

theorem lineLength_eq {store : Text} {n : ℕ} (h : lineLength store = some n) : IsLine '\n' (store.take n) := by
  obtain ⟨i,hi,rfl⟩ := Option.map_eq_some_iff.mp h
  exact isLine_take hi

/-! ## The steps of the operation -/

section Steps

variable {s t : State}

theorem Sound.frame (h : Sound s)
    (hsame : (t.stage,t.point,t.rxstore,t.ec,t.reads,t.log) = (s.stage,s.point,s.rxstore,s.ec,s.reads,s.log))
    (hquiet : s.stage = .before → s.runOp = false → t.runOp = false ∧ t.loaded = s.loaded ∧ t.tasks = s.tasks) :
    Sound t := by
  simp only [Prod.mk.injEq] at hsame
  obtain ⟨hstage,hpoint,hstore,hec,hreads,hlog⟩ := hsame
  refine ⟨?_,?_,by rw [hec,hlog]; exact h.error,by rw [hlog]; exact h.lawful,by rw [hlog]; exact h.settled⟩
  · cases h.phase with
    | fresh h₁ h₂ h₃ h₄ h₅ h₆ h₇ =>
      refine Phase.fresh (hstage ▸ h₁) (hpoint.trans h₂) (hec.trans h₃) (hreads.trans h₄) (hstore.trans h₅)
        (hlog.trans h₆) fun hbefore => ?_
      have hs : s.stage = .before := hstage ▸ hbefore
      obtain ⟨hrunOp,hloaded,htasks⟩ := h₇ hs
      obtain ⟨hrunOp',hloaded',htasks'⟩ := hquiet hs hrunOp
      exact ⟨hrunOp',hloaded'.trans hloaded,htasks'.trans htasks⟩
    | reading r h₁ h₂ h₃ h₄ h₅ h₆ =>
      exact Phase.reading r (hstage.trans h₁) (hpoint.trans h₂) (hreads.trans h₃) (by rw [hstore]; exact h₄)
        (by rw [hlog]; exact h₅) (by rw [hlog]; exact h₆)
    | ended h₁ h₂ h₃ h₄ h₅ =>
      exact Phase.ended (hstage.trans h₁) (hpoint.trans h₂) (hreads.trans h₃) (by rw [hlog]; exact h₄)
        (by rw [hlog]; exact h₅)
  · obtain ⟨ls,hls,hreceived,hexamined⟩ := h.streamed
    exact ⟨ls,hls,by rw [hlog,hstore]; exact hreceived,by rw [hlog]; exact hexamined⟩

theorem Sound.cancelled (h : Sound s) (hstage : s.stage = .returned) (reached : Bool) :
    Sound (s.execute reached .cancel) where
  phase := by
    cases h.phase with
    | fresh h₁ => exact absurd hstage h₁
    | reading r h₁ h₂ h₃ h₄ h₅ h₆ =>
      cases reached with
      | false =>
        exact Phase.reading r h₁ h₂ h₃ h₄ (by simpa [State.execute,State.cancelBody,State.emit] using h₅)
          (by simpa [State.execute,State.cancelBody,State.emit] using h₆)
      | true =>
        refine Phase.reading r.cancel h₁ h₂ ?_ ?_ (by simpa [State.execute,State.cancelBody,State.emit] using h₅)
          (by simpa [State.execute,State.cancelBody,State.emit] using h₆)
        · simp [State.execute,State.cancelBody,State.emit,h₃]
        · intro n hn
          -- A read that is over is not cancelled.
          cases r with
          | done r => exact h₄ n hn
          | _ => cases hn
    | ended h₁ h₂ h₃ h₄ h₅ =>
      refine Phase.ended h₁ h₂ ?_ (by simpa [State.execute,State.cancelBody,State.emit] using h₄)
        (by simpa [State.execute,State.cancelBody,State.emit] using h₅)
      simp [State.execute,State.cancelBody,State.emit,h₃]
  streamed := by
    obtain ⟨ls,hls,hreceived,hexamined⟩ := h.streamed
    exact ⟨ls,hls,by simpa [State.execute,State.cancelBody,State.emit] using hreceived,
      by simpa [State.execute,State.cancelBody,State.emit] using hexamined⟩
  error := by simp [State.execute,State.cancelBody,State.emit,Disturbed]
  lawful := h.lawful.snoc (lawful_of_settled h.settled rfl rfl)
  settled := settled_snoc rfl

theorem Sound.read_of_get (h : Sound s) {i : ℕ} {r : Status (Except Error ℕ)} (hr : s.reads[i]? = some r) :
    i = 0 ∧ s.reads = [r] ∧ s.stage = .returned ∧ s.point = .reading ∧
      (∀ n, r = .done (.ok n) → lineLength s.rxstore = some n) ∧ completions s.log = [] ∧ failures s.log = [] := by
  cases h.phase with
  | fresh _ _ _ h₄ => simp [h₄] at hr
  | ended _ _ h₃ => simp [h₃] at hr
  | reading q h₁ h₂ h₃ h₄ h₅ h₆ =>
    rw [h₃] at hr
    obtain ⟨hi,rfl⟩ := List.getElem?_eq_some_iff.mp hr
    obtain rfl : i = 0 := by simpa using hi
    exact ⟨rfl,h₃,h₁,h₂,h₄,h₅,h₆⟩

theorem Sound.arrive (h : Sound s) {i : ℕ} (hr : s.reads[i]? = some .pending) (chunk : Text) :
    Sound (s.arrive i chunk) := by
  obtain ⟨rfl,hreads,hstage,hpoint,-,hcompletions,hfailures⟩ := h.read_of_get hr
  obtain ⟨ls,hls,hreceived,hexamined⟩ := h.streamed
  have hlaw : Chronicle Lawful (s.log ++ [Event.arrived chunk]) := h.lawful.snoc (lawful_of_settled h.settled rfl rfl)
  have hend : Settled (s.log ++ [Event.arrived chunk]) := settled_snoc rfl
  have herror : s.ec = none ↔ ¬ Disturbed (s.log ++ [Event.arrived chunk]) := by simpa [Disturbed] using h.error
  have hnone : completions (s.log ++ [Event.arrived chunk]) = [] := by simpa using hcompletions
  have hgood : failures (s.log ++ [Event.arrived chunk]) = [] := by simpa using hfailures
  have hall : received (s.log ++ [Event.arrived chunk]) = ls.flatten ++ (s.rxstore ++ chunk) := by simp [hreceived]
  have hlines : examined (s.log ++ [Event.arrived chunk]) =
      ls ++ (failures (s.log ++ [Event.arrived chunk])).map fun _ => [] := by simpa using hexamined
  cases hlength : lineLength (s.rxstore ++ chunk) with
  | none =>
    have hwaits : s.arrive 0 chunk =
        { s with log := s.log ++ [Event.arrived chunk], rxstore := s.rxstore ++ chunk } := by
      simp [State.arrive,State.emit,hlength]
    rw [hwaits]
    refine ⟨Phase.reading .pending hstage hpoint hreads (fun n hn => ?_) hnone hgood,⟨ls,hls,hall,hlines⟩,herror,
      hlaw,hend⟩
    cases hn
  | some n =>
    have hends : s.arrive 0 chunk = { s with
        log := s.log ++ [Event.arrived chunk], rxstore := s.rxstore ++ chunk, reads := [.done (.ok n)] } := by
      simp [State.arrive,State.emit,hlength,hreads]
    rw [hends]
    refine ⟨Phase.reading (.done (.ok n)) hstage hpoint rfl (fun m hm => ?_) hnone hgood,⟨ls,hls,hall,hlines⟩,herror,
      hlaw,hend⟩
    cases hm
    exact hlength

theorem Sound.fail (h : Sound s) {i : ℕ} {e : Error} {reads : List (Status (Except Error ℕ))}
    (hreads : completeAt readFailed (.error e) s.reads i = some reads) : Sound { s with reads := reads } := by
  obtain ⟨st,hst,rfl⟩ := Option.map_eq_some_iff.mp hreads
  obtain ⟨r,hr,hcomplete⟩ := Option.bind_eq_some_iff.mp hst
  obtain ⟨rfl,hsame,hstage,hpoint,-,hcompletions,hfailures⟩ := h.read_of_get hr
  obtain ⟨rfl,-⟩ := Status.complete_cases hcomplete
  refine ⟨?_,h.streamed,h.error,h.lawful,h.settled⟩
  refine Phase.reading (.done (.error e)) hstage hpoint (by simp [hsame]) (fun n hn => ?_) hcompletions hfailures
  cases hn

/-- A line was examined, and what follows from it is still to be done. -/
structure Looked (s : State) (before : List Event) (line : Text) : Prop where
  log : s.log = before ++ [.examined line]
  stage : s.stage = .returned
  reads : s.reads = []
  streamed : Streamed s
  error : s.ec = none ↔ ¬ Disturbed before
  lawful : Chronicle Lawful s.log
  unfinished : completions s.log = []
  failures_le : (failures s.log).length ≤ 1

theorem Looked.finish {before : List Event} {line : Text} (h : Looked s before line) (hstop : Stops before line) :
    Sound s.finish := by
  have hcompletion : s.finish.log = s.log ++ [Event.completed s.ec s.lastEvent false true] := by
    simp [State.finish,State.emit,h.stage]
  have hdisturbed : Disturbed s.finish.log ↔ Disturbed before := by simp [hcompletion,h.log,Disturbed]
  refine ⟨?_,?_,?_,?_,?_⟩
  · exact Phase.ended h.stage rfl h.reads (by simp [hcompletion,h.unfinished])
      (by simpa [hcompletion] using h.failures_le)
  · obtain ⟨ls,hls,hreceived,hexamined⟩ := h.streamed
    have hstore : s.finish.rxstore = s.rxstore := rfl
    exact ⟨ls,hls,by simp [hcompletion,hstore,hreceived],by simpa [hcompletion] using hexamined⟩
  · rw [hdisturbed]
    exact h.error
  · rw [hcompletion]
    refine h.lawful.snoc ⟨?_,?_,?_⟩
    · intro earlier line' hsplit
      obtain ⟨rfl,hlast⟩ := List.append_inj' (h.log.symm.trans hsplit) rfl
      obtain rfl : line = line' := by simpa using hlast
      exact iff_of_true hstop rfl
    · intro line' he
      cases he
    · intro ec event inside cleared he
      cases he
      refine ⟨h.unfinished,rfl,rfl,before,line,h.log,?_⟩
      rw [h.error]
      refine ⟨fun hcalm => ⟨hstop.resolve_right hcalm,hcalm⟩,fun hboth => hboth.2⟩
  · rw [hcompletion]
    exact settled_snoc rfl

theorem Looked.asyncReadUntil {before : List Event} {line : Text} (h : Looked s before line)
    (hgoes : ¬ Stops before line) (hfailures : failures s.log = []) : Sound s.asyncReadUntil := by
  refine ⟨?_,h.streamed,?_,h.lawful,?_⟩
  · cases hlength : lineLength s.rxstore with
    | none =>
      have hread : s.asyncReadUntil.reads = [.pending] := by simp [State.asyncReadUntil,h.reads,hlength]
      exact Phase.reading .pending h.stage rfl hread (fun n hn => by cases hn) h.unfinished hfailures
    | some m =>
      have hread : s.asyncReadUntil.reads = [.done (.ok m)] := by simp [State.asyncReadUntil,h.reads,hlength]
      refine Phase.reading (.done (.ok m)) h.stage rfl hread (fun n hn => ?_) h.unfinished hfailures
      cases hn
      exact hlength
  · have hsame : Disturbed s.log ↔ Disturbed before := by simp [h.log,Disturbed]
    change s.ec = none ↔ ¬ Disturbed s.log
    rw [hsame]
    exact h.error
  · intro earlier line' hsplit
    obtain ⟨rfl,hlast⟩ := List.append_inj' (h.log.symm.trans hsplit) rfl
    obtain rfl : line = line' := by simpa using hlast
    exact hgoes

/-- The operation has taken the line from the store. -/
def State.looked (s : State) (ec : ErrorCode) (n : ℕ) : State :=
  { s with
    ec := if ec.isSome && s.ec.isNone then ec else s.ec
    log := (s.log ++ [.resumed ec]) ++ [.examined (s.rxstore.take n)]
    rxstore := s.rxstore.drop n }

theorem resume_reading (hpoint : s.point = .reading) (ec : ErrorCode) (n : ℕ) :
    s.resume ec n true = if command (s.rxstore.take n) = true ∨ (s.looked ec n).ec ≠ none then (s.looked ec n).finish
      else (s.looked ec n).asyncReadUntil := by
  simp only [State.resume,State.emit,hpoint]
  by_cases hcommand : command (s.rxstore.take n) = true
  · simp only [State.examine,State.emit,hcommand,if_true,true_or]
    rfl
  · cases hec : (s.looked ec n).ec with
    | none =>
      simp only [State.examine,State.emit,hcommand]
      change (s.looked ec n).loop true = _
      simp [State.loop,hec]
    | some e =>
      simp only [State.examine,State.emit,hcommand]
      change (s.looked ec n).loop true = _
      simp [State.loop,State.done,hec]

theorem Sound.looked (h : Sound s) {i : ℕ} {x : Except Error ℕ} (hget : s.reads[i]? = some (.done x)) :
    Looked ({ s with reads := [] }.looked (resultOf x).1 (resultOf x).2) (s.log ++ [.resumed (resultOf x).1])
      (s.rxstore.take (resultOf x).2) := by
  obtain ⟨rfl,-,hstage,-,hresult,hcompletions,hfailures⟩ := h.read_of_get hget
  obtain ⟨ls,hls,hreceived,hexamined⟩ := h.streamed
  have hresumed : Chronicle Lawful (s.log ++ [Event.resumed (resultOf x).1]) :=
    h.lawful.snoc (lawful_of_settled h.settled rfl rfl)
  refine ⟨rfl,hstage,rfl,?_,?_,?_,?_,?_⟩
  · cases x with
    | error e => exact ⟨ls,hls,by simp [resultOf,State.looked,hreceived],
        by simp [resultOf,State.looked,hexamined,hfailures]⟩
    | ok n =>
      have hline : IsLine '\n' (s.rxstore.take n) := lineLength_eq (hresult n rfl)
      refine ⟨ls ++ [s.rxstore.take n],?_,?_,by simp [resultOf,State.looked,hexamined,hfailures]⟩
      · intro l hl
        rcases List.mem_append.mp hl with hl | hl
        · exact hls l hl
        · rw [List.mem_singleton.mp hl]
          exact hline
      · simp [resultOf,State.looked,hreceived]
  · have hbefore : s.ec = none ↔ ¬ Disturbed s.log := h.error
    cases x with
    | ok n => simpa [resultOf,State.looked,Disturbed] using hbefore
    | error e => cases hec : s.ec <;> simp [resultOf,State.looked,Disturbed]
  · refine hresumed.snoc ⟨?_,?_,?_⟩
    · intro earlier line hsplit
      have hlast := (List.append_inj' hsplit rfl).2
      simp at hlast
    · intro line _
      simpa using hcompletions
    · intro ec event inside cleared he
      cases he
  · simpa [State.looked] using hcompletions
  · cases x <;> simp [resultOf,State.looked,hfailures]

theorem Sound.resume (h : Sound s) {i : ℕ} {x : Except Error ℕ} {reads : List (Status (Except Error ℕ))}
    (htake : takeAt s.reads i = some (x,reads)) :
    Sound ({ s with reads := reads }.resume (resultOf x).1 (resultOf x).2 true) := by
  obtain ⟨hget,rfl⟩ := takeAt_cases htake
  have hlooked := h.looked hget
  obtain ⟨rfl,hreads,-,hpoint,-,-,-⟩ := h.read_of_get hget
  have hnone : s.reads.eraseIdx 0 = [] := by simp [hreads]
  have hresume := resume_reading (s := { s with reads := [] }) hpoint (resultOf x).1 (resultOf x).2
  rw [hnone,hresume]
  split
  · next hstop =>
    refine hlooked.finish ?_
    rcases hstop with hcommand | hec
    · exact Or.inl hcommand
    · refine Or.inr ?_
      by_contra hcalm
      exact hec (hlooked.error.mpr hcalm)
  · next hgoes =>
    rw [not_or,not_not] at hgoes
    have hcalm := hlooked.error.mp hgoes.2
    refine hlooked.asyncReadUntil (fun hstop => hstop.elim hgoes.1 hcalm) ?_
    by_contra hfailed
    exact hcalm (Or.inr (by simpa [State.looked] using hfailed))

theorem Sound.call (h : Sound s) (hstage : s.stage = .published) : Sound s.call := by
  cases h.phase with
  | reading r h₁ => cases hstage.symm.trans h₁
  | ended h₁ => cases hstage.symm.trans h₁
  | fresh _ hpoint hec hreads hstore hlog _ =>
    have hcall : s.call = { s with
        stage := .returned, point := .reading, reads := [.pending], log := [.resumed none] } := by
      simp [State.call,State.resume,State.emit,hpoint,hec,hlog,State.loop,State.asyncReadUntil,hreads,hstore,
        show lineLength [] = none from rfl]
    rw [hcall]
    refine ⟨Phase.reading .pending rfl rfl rfl (fun n hn => by cases hn) rfl rfl,⟨[],by simp,by simp [hstore],by simp⟩,
      by simp [hec,Disturbed],?_,?_⟩
    · exact Chronicle.nil.snoc (lawful_of_settled (fun earlier line h => by simp at h) rfl rfl)
    · have hend : Settled ([] ++ [Event.resumed none]) := settled_snoc rfl
      exact hend

/-- Behind `async_run`, somebody can have loaded the pointer, and a task can run. -/
theorem Sound.returned (h : Sound s) (hfree : s.free = true) (hbusy : 0 < s.loaded ∨ s.tasks ≠ []) :
    s.stage = .returned := by
  cases h.phase with
  | reading r h₁ => exact h₁
  | ended h₁ => exact h₁
  | fresh h₁ _ _ _ _ _ h₇ =>
    exfalso
    cases hstage : s.stage with
    | returned => exact h₁ hstage
    | published => simp [State.free,hstage] at hfree
    | before =>
      obtain ⟨-,hloaded,htasks⟩ := h₇ hstage
      rcases hbusy with hpos | hne
      · omega
      · exact hne htasks

theorem sound_step (h : Sound s) {a : Action} (hstep : step s a = some t) : Sound t := by
  cases a with
  | publish =>
    obtain ⟨hstage,hpublish⟩ := Option.ite_none_right_eq_some.mp hstep
    obtain rfl := Option.some.inj hpublish
    cases h.phase with
    | reading r h₁ => cases hstage.symm.trans h₁
    | ended h₁ => cases hstage.symm.trans h₁
    | fresh _ h₂ h₃ h₄ h₅ h₆ _ =>
      exact sound_of_nil (Phase.fresh (by simp [State.publish]) h₂ h₃ h₄ h₅ h₆ (by simp [State.publish])) h₅ h₃ h₆
  | call =>
    obtain ⟨hstage,hcall⟩ := Option.ite_none_right_eq_some.mp hstep
    obtain rfl := Option.some.inj hcall
    exact h.call hstage
  | load =>
    obtain ⟨hrunOp,hload⟩ := Option.ite_none_right_eq_some.mp hstep
    obtain rfl := Option.some.inj hload
    refine h.frame rfl fun _ hclear => ?_
    simp [hclear] at hrunOp
  | cancel onExecutor reached =>
    obtain ⟨⟨hloaded,hfree⟩,hcancel⟩ := Option.ite_none_right_eq_some.mp hstep
    obtain rfl := Option.some.inj hcancel
    have hnotBefore : s.stage ≠ .before := by
      intro hbefore
      cases (h.returned (by simp [State.free,hbefore]) (Or.inl hloaded)).symm.trans hbefore
    cases onExecutor with
    | false => exact h.frame rfl fun hbefore => absurd hbefore hnotBefore
    | true =>
      have hreturned := h.returned (hfree rfl) (Or.inl hloaded)
      have htaken : Sound { s with loaded := s.loaded - 1 } := h.frame rfl fun hbefore => absurd hbefore hnotBefore
      exact htaken.cancelled hreturned reached
  | runTask i reached =>
    obtain ⟨hfree,hrun⟩ := Option.ite_none_right_eq_some.mp hstep
    obtain ⟨task,htask,rfl⟩ := Option.map_eq_some_iff.mp hrun
    have hbusy : s.tasks ≠ [] := by
      rintro hnil
      simp [hnil] at htask
    have hreturned := h.returned hfree (Or.inr hbusy)
    have hbegun : Sound { s with tasks := s.tasks.eraseIdx i } := by
      refine h.frame rfl fun hbefore => ?_
      cases hreturned.symm.trans hbefore
    cases task with
    | cancel => exact hbegun.cancelled hreturned reached
    | expression => exact hbegun
  | arrive i chunk =>
    obtain ⟨hr,harrive⟩ := Option.ite_none_right_eq_some.mp hstep
    obtain rfl := Option.some.inj harrive
    exact h.arrive hr chunk
  | fail i e =>
    obtain ⟨reads,hreads,rfl⟩ := Option.map_eq_some_iff.mp hstep
    exact h.fail hreads
  | resume i =>
    obtain ⟨-,hresume⟩ := Option.ite_none_right_eq_some.mp hstep
    obtain ⟨⟨x,reads⟩,htake,rfl⟩ := Option.map_eq_some_iff.mp hresume
    exact h.resume htake

end Steps

theorem reachable_sound {s : State} (h : machine.Reachable s) : Sound s := by
  refine h.invariant ?_ ?_
  · rintro s rfl
    exact sound_init
  · intro s a t hs ha
    exact sound_step hs ha

/-- The handler is invoked once, when no read is in flight any more, and every line is examined once, up to the one that
stops the operation. -/
theorem console_completes_once {s : State} (h : machine.Reachable s) :
    (completions s.log).length + s.reads.length = (if s.stage = .returned then 1 else 0) ∧
    (∃ n, examined s.log = (lines '\n' (received s.log)).take n ++ (failures s.log).map fun _ => []) ∧
    (failures s.log).length ≤ 1 ∧ Chronicle Lawful s.log ∧ Settled s.log := by
  have hsound := reachable_sound h
  refine ⟨?_,?_,?_,hsound.lawful,hsound.settled⟩
  · cases hsound.phase with
    | fresh h₁ _ _ h₄ _ h₆ => simp [h₁,h₄,h₆]
    | reading r h₁ _ h₃ _ h₅ => simp [h₁,h₃,h₅]
    | ended h₁ _ h₃ h₄ => simp [h₁,h₃,h₄]
  · obtain ⟨ls,hls,hreceived,hexamined⟩ := hsound.streamed
    refine ⟨ls.length,?_⟩
    rw [hreceived,lines_flatten_append hls,List.take_left,hexamined]
  · cases hsound.phase with
    | fresh _ _ _ _ _ h₆ => simp [h₆]
    | reading r _ _ _ _ _ h₆ => simp [h₆]
    | ended _ _ _ _ h₅ => exact h₅

def goThenQuit : List Action :=
  [.publish,.call,.load,.arrive 0 ['g','o','\n','Q','u','i','t','\r','\n'],.resume 0,.resume 0,.cancel false true,
    .runTask 0 true]

theorem console_completes_once_goThenQuit : ∃ s, machine.replay State.init goThenQuit = some s ∧
    examined s.log = [['g','o','\n'],['Q','u','i','t','\r','\n']] ∧ completions s.log = [none] ∧
    (completions s.log).length + s.reads.length = 1 := by
  have hrun : machine.replay State.init goThenQuit = some _ := rfl
  have h := console_completes_once (Machine.Reachable.of_replay rfl hrun)
  exact ⟨_,hrun,rfl,rfl,h.1⟩

end Console
end BeastWebsocketEcho
