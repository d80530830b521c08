import Mathlib.Data.List.TakeWhile
import BeastWebsocketEcho.SigintState

/-!
# Two presses

The first invariant ties the state to the waits that are outstanding or queued, and to the
interrupts and expiries that were handled. The second one is the account of the slots: a
roster of those that are still to be called and those that were.
-/

namespace BeastWebsocketEcho
namespace SigintState

open State

inductive Step (s : State) : Action → State → Prop
  | stopNow : free s.frames = true → Step s (.stop true) s.handleStop
  | stopLater : Step s (.stop false) { s with tasks := s.tasks ++ [.stop] }
  | addNow : free s.frames = true → Step s (.addSlot true) ({ s with slots := s.slots + 1 }.handleAddSlot s.slots)
  | addLater : Step s (.addSlot false) { s with slots := s.slots + 1, tasks := s.tasks ++ [.addSlot s.slots] }
  | runTask (task : Task) (tasks : List Task) : s.frames = [] → s.tasks = task :: tasks →
      Step s .runTask ({ s with tasks := tasks }.runTask task)
  | deliver : s.registered = true → Step s .deliver s.deliver
  | signalAborted (i : ℕ) : s.signalWaits[i]? = some .cancelled →
      Step s (.signalAborted i) { s with signalWaits := s.signalWaits.set i (.done (some .operationAborted)) }
  | handleSignal (i : ℕ) (ec : ErrorCode) : s.frames = [] → s.signalWaits[i]? = some (.done ec) →
      Step s (.handleSignal i) ({ s with signalWaits := s.signalWaits.eraseIdx i }.handleSignal ec)
  | timerEnds (i : ℕ) (timer : Timer) : s.timer.complete i = some timer →
      Step s (.timerEnds i) { s with timer := timer }
  | handleTimer (i : ℕ) (ec : ErrorCode) (timer : Timer) : s.frames = [] → s.timer.take i = some (ec,timer) →
      Step s (.handleTimer i) ({ s with timer := timer }.handleTimer ec)
  | runSlot (slot number : ℕ) (rest : List ℕ) (outer : List (Frame ℕ Unit)) :
      s.frames = .batch number (slot :: rest) :: outer →
      Step s .runSlot ({ s with frames := .call () :: .batch number rest :: outer }.emit (.invoked slot))
  | loopEnds (number : ℕ) (outer : List (Frame ℕ Unit)) : s.frames = .batch number [] :: outer →
      Step s .loopEnds { s with frames := outer }
  | slotReturns (outer : List (Frame ℕ Unit)) : s.frames = .call () :: outer →
      Step s .slotReturns { s with frames := outer }

theorem step_cases {s t : State} {a : Action} (h : step s a = some t) : Step s a t := by
  cases a with
  | stop inl =>
    cases inl with
    | true =>
      obtain ⟨hfree,hok⟩ := Option.ite_none_right_eq_some.mp h
      obtain rfl := Option.some.inj hok
      exact Step.stopNow hfree
    | false =>
      obtain rfl := Option.some.inj h
      exact Step.stopLater
  | addSlot inl =>
    cases inl with
    | true =>
      obtain ⟨hfree,hok⟩ := Option.ite_none_left_eq_some.mp h
      obtain rfl := Option.some.inj hok
      exact Step.addNow (by simpa using hfree)
    | false =>
      obtain rfl := Option.some.inj h
      exact Step.addLater
  | runTask =>
    simp only [step] at h
    split at h
    · next task tasks hframes htasks =>
      obtain rfl := Option.some.inj h
      exact Step.runTask task tasks hframes htasks
    · cases h
  | deliver =>
    obtain ⟨hreg,hok⟩ := Option.ite_none_right_eq_some.mp h
    obtain rfl := Option.some.inj hok
    exact Step.deliver hreg
  | signalAborted i =>
    simp only [step] at h
    split at h
    · next hw =>
      obtain rfl := Option.some.inj h
      exact Step.signalAborted i hw
    · cases h
  | handleSignal i =>
    simp only [step] at h
    split at h
    · next ec hframes hw =>
      obtain rfl := Option.some.inj h
      exact Step.handleSignal i ec hframes hw
    · cases h
  | timerEnds i =>
    obtain ⟨timer,htimer,rfl⟩ := Option.map_eq_some_iff.mp h
    exact Step.timerEnds i timer htimer
  | handleTimer i =>
    simp only [step] at h
    split at h
    · next ec timer hframes htake =>
      obtain rfl := Option.some.inj h
      exact Step.handleTimer i ec timer hframes htake
    · cases h
  | runSlot =>
    obtain ⟨⟨slot,frames⟩,htake,rfl⟩ := Option.map_eq_some_iff.mp h
    obtain ⟨number,rest,outer,hframes,hslot,rfl⟩ := takeNext_cases htake
    cases rest with
    | nil => simp at hslot
    | cons first rest =>
      obtain rfl : first = slot := by simpa using hslot
      exact Step.runSlot first number rest outer hframes
  | loopEnds =>
    simp only [step] at h
    split at h
    · next number outer hframes =>
      obtain rfl := Option.some.inj h
      exact Step.loopEnds number outer hframes
    · cases h
  | slotReturns =>
    simp only [step] at h
    split at h
    · next outer hframes =>
      obtain rfl := Option.some.inj h
      exact Step.slotReturns outer hframes
    · cases h

/-! ## The presses -/

/-- An interrupt was handled, and no wait that expired was handled after it. -/
def Pressed (log : List Event) : Prop := ∃ before mid, log = before ++ .signal none :: mid ∧ .timer none ∉ mid

section Logs

variable {log : List Event} {e : Event}

/-- An event that is neither an interrupt nor an expiry. -/
def Event.aside : Event → Bool
  | .signal none => false
  | .timer none => false
  | _ => true

theorem pressed_interrupt (log : List Event) : Pressed (log ++ [Event.signal none]) := ⟨log,[],rfl,by simp⟩

theorem not_pressed_expiry (log : List Event) : ¬ Pressed (log ++ [Event.timer none]) := by
  rintro ⟨before,mid,hlog,hmid⟩
  rcases Chronicle.split_snoc hlog with ⟨-,he,-⟩ | ⟨init,rfl,-⟩
  · cases he
  · simp at hmid

theorem pressed_aside (he : e.aside = true) : Pressed (log ++ [e]) ↔ Pressed log := by
  constructor
  · rintro ⟨before,mid,hlog,hmid⟩
    rcases Chronicle.split_snoc hlog with ⟨-,rfl,-⟩ | ⟨init,rfl,rfl⟩
    · cases he
    · exact ⟨before,init,rfl,fun hmem => hmid (List.mem_append_left _ hmem)⟩
  · rintro ⟨before,mid,rfl,hmid⟩
    refine ⟨before,mid ++ [e],by simp,?_⟩
    simp only [List.mem_append,List.mem_singleton,not_or]
    refine ⟨hmid,?_⟩
    rintro rfl
    cases he

/-- Two presses that are separated by no expiry stay so. -/
theorem PressedTwice.append (h : PressedTwice log) (k : List Event) : PressedTwice (log ++ k) := by
  obtain ⟨before,mid,after,rfl,hmid⟩ := h
  exact ⟨before,mid,after ++ k,by simp,hmid⟩

/-- The second press is an interrupt that follows a first one. -/
theorem pressedTwice_snoc : PressedTwice (log ++ [e]) ↔ PressedTwice log ∨ e = .signal none ∧ Pressed log := by
  constructor
  · rintro ⟨before,mid,after,hlog,hmid⟩
    rw [← List.cons_append,← List.append_assoc] at hlog
    rcases Chronicle.split_snoc hlog with ⟨hfirst,he,-⟩ | ⟨init,-,hfirst⟩
    · exact Or.inr ⟨he.symm,before,mid,hfirst.symm,hmid⟩
    · exact Or.inl ⟨before,mid,init,by simpa using hfirst,hmid⟩
  · rintro (h | ⟨rfl,before,mid,rfl,hmid⟩)
    · exact h.append [e]
    · exact ⟨before,mid,[],by simp,hmid⟩

theorem pressedTwice_other (he : e ≠ .signal none) : PressedTwice (log ++ [e]) ↔ PressedTwice log := by
  rw [pressedTwice_snoc]
  exact or_iff_left fun h => he h.1

end Logs

def Task.isCommand : Task → Bool
  | .addSlot _ => false
  | _ => true

/-- What is outstanding or queued in each state, and what was handled on the way to it. The wait of a
confirmation period is the one that was started last, and it is alive. -/
def Phase (log : List Event) (timer : Timer) (waits : ℕ) : StateType → Prop
  | .inactive => waits = 0 ∧ timer.numbers = [] ∧ ¬ Pressed log ∧ ¬ PressedTwice log
  | .waiting => waits = 1 ∧ timer.numbers = [] ∧ ¬ Pressed log ∧ ¬ PressedTwice log
  | .confirming => waits = 1 ∧ (∃ n, timer.numbers = [n] ∧ timer.live = [n] ∧ n + 1 = timer.started) ∧
      Pressed log ∧ ¬ PressedTwice log
  | .exitState => waits = 0 ∧ PressedTwice log

theorem Phase.aside {log : List Event} {timer : Timer} {waits : ℕ} {state : StateType} {e : Event}
    (h : Phase log timer waits state) (he : e.aside = true) : Phase (log ++ [e]) timer waits state := by
  have hne : e ≠ .signal none := by
    rintro rfl
    cases he
  cases state with
  | exitState => exact ⟨h.1,h.2.append [e]⟩
  | _ => simpa only [Phase,pressed_aside he,pressedTwice_other hne] using h

theorem Phase.asides {log log' : List Event} {timer : Timer} {waits : ℕ} {state : StateType}
    (h : Phase log timer waits state) (hlog : Grows (fun e => e.aside = true) log log') :
    Phase log' timer waits state := by
  obtain ⟨k,rfl,hk⟩ := hlog
  exact append_induction (P := fun l => Phase l timer waits state) h k fun l e he hl => hl.aside (hk e he)

structure Watch (s : State) : Prop where
  /-- `start` is executed once, and `stop` was not called. -/
  commands : s.tasks.filter Task.isCommand = if s.state = .inactive then [.start] else []
  alive : ∀ st ∈ s.signalWaits, st = .pending ∨ st = .done none
  phase : Phase s.log s.timer s.signalWaits.length s.state

namespace Watch

variable {s t : State}

theorem init : Watch State.init where
  commands := rfl
  alive := by simp [State.init]
  phase := ⟨rfl,rfl,by simp [Pressed,State.init],by simp [PressedTwice,State.init]⟩

theorem frame (h : Watch s) (hsame : (t.state,t.signalWaits,t.timer) = (s.state,s.signalWaits,s.timer))
    (htasks : t.tasks.filter Task.isCommand = s.tasks.filter Task.isCommand)
    (hlog : Grows (fun e => e.aside = true) s.log t.log) : Watch t := by
  simp only [Prod.mk.injEq] at hsame
  obtain ⟨hstate,hwaits,htimer⟩ := hsame
  constructor
  · rw [htasks,hstate]
    exact h.commands
  · rw [hwaits]
    exact h.alive
  · rw [hstate,hwaits,htimer]
    exact h.phase.asides hlog

theorem handleAddSlot (h : Watch s) (slot : ℕ) : Watch (s.handleAddSlot slot) := by
  have hadded : Grows (fun e => e.aside = true) s.log (s.log ++ [Event.added slot]) := (Grows.refl s.log).snoc rfl
  unfold State.handleAddSlot
  split
  · exact h.frame rfl rfl (hadded.snoc rfl)
  all_goals exact h.frame rfl rfl hadded

theorem awaitSignal (s : State) : ∃ n st, (st = .pending ∨ st = .done none) ∧ s.awaitSignal =
    { s with undelivered := n, signalWaits := s.signalWaits ++ [st], log := s.log ++ [Event.awaitSignal] } := by
  unfold State.awaitSignal
  split
  · next hnone => exact ⟨0,.pending,Or.inl rfl,by rw [State.emit,← hnone]⟩
  · exact ⟨_,.done none,Or.inr rfl,rfl⟩

theorem handleStart (h : Watch s) {tasks : List Task} (htasks : s.tasks = .start :: tasks) :
    Watch ({ s with tasks := tasks }.handleStart) := by
  have hcommands := h.commands
  rw [htasks,List.filter_cons_of_pos (by rfl)] at hcommands
  have hstate : s.state = .inactive := by
    by_contra hne
    simp [hne] at hcommands
  have hphase := h.phase
  rw [hstate] at hphase
  obtain ⟨hnone,htimer,hpressed,htwice⟩ := hphase
  have hnil : s.signalWaits = [] := List.length_eq_zero_iff.mp hnone
  have hwaiting : Phase s.log s.timer 1 .waiting := ⟨rfl,htimer,hpressed,htwice⟩
  obtain ⟨n,st,hst,hawait⟩ := awaitSignal { s with tasks := tasks, registered := true }
  rw [State.handleStart,hawait]
  constructor
  · simpa [hstate] using hcommands
  · simpa [hnil] using hst
  · simpa [hnil] using hwaiting.aside (e := .awaitSignal) rfl

theorem deliver (h : Watch s) : Watch s.deliver := by
  unfold State.deliver
  split
  · constructor
    · exact h.commands
    · intro st hst
      obtain ⟨st',hmem,rfl⟩ := List.mem_map.mp hst
      rcases h.alive st' hmem with rfl | rfl
      · exact Or.inr rfl
      · exact Or.inr rfl
    · simpa using h.phase
  · exact h.frame rfl rfl (Grows.refl s.log)

/-- A confirmation period begins with its wait. -/
theorem confirms (hstate : s.state = .confirming) (hcommands : s.tasks.filter Task.isCommand = [])
    (hwaits : s.signalWaits = []) (hphase : Phase s.log s.timer.cancel.asyncWait 1 .confirming) :
    Watch s.awaitTimer.awaitSignal := by
  obtain ⟨n,st,hst,hawait⟩ := awaitSignal s.awaitTimer
  rw [hawait]
  constructor
  · simpa [State.awaitTimer,emit,hstate] using hcommands
  · simpa [State.awaitTimer,emit,hwaits] using hst
  · have hasides := (hphase.aside (e := .awaitTimer) rfl).aside (e := .awaitSignal) rfl
    simpa [State.awaitTimer,emit,hwaits,hstate] using hasides

/-- The first press begins a confirmation period, and the second one ends it. -/
theorem handleSignal (h : Watch s) {i : ℕ} (hi : s.signalWaits[i]? = some (.done none)) :
    Watch ({ s with signalWaits := s.signalWaits.eraseIdx i }.handleSignal none) := by
  have hlength : (s.signalWaits.eraseIdx i).length = s.signalWaits.length - 1 :=
    List.length_eraseIdx_of_lt (List.getElem?_eq_some_iff.mp hi).1
  have hpos : s.signalWaits.length ≠ 0 := by
    intro hnone
    simp [List.length_eq_zero_iff.mp hnone] at hi
  have hcommands := h.commands
  have hphase := h.phase
  cases hstate : s.state with
  | inactive => exact absurd (hstate ▸ hphase).1 hpos
  | exitState => exact absurd (hstate ▸ hphase).1 hpos
  | waiting =>
    rw [hstate] at hphase hcommands
    obtain ⟨hone,htimer,hpressed,htwice⟩ := hphase
    have hnil : s.signalWaits.eraseIdx i = [] := List.length_eq_zero_iff.mp (by omega)
    have hnot : ¬ PressedTwice (s.log ++ [Event.signal none]) := by
      rw [pressedTwice_snoc]
      rintro (h₁ | h₂)
      · exact htwice h₁
      · exact hpressed h₂.2
    have hwait : s.timer.cancel.asyncWait.numbers = [s.timer.started] := by simp [htimer]
    have hlive : s.timer.cancel.asyncWait.live = [s.timer.started] := by simp [Timer.expired_of_numbers_nil htimer]
    have hpress : Phase (s.log ++ [Event.signal none]) s.timer.cancel.asyncWait 1 .confirming :=
      ⟨rfl,⟨_,hwait,hlive,rfl⟩,pressed_interrupt s.log,hnot⟩
    simp only [State.handleSignal,State.eventSigint,emit]
    apply confirms
    · rfl
    · exact hcommands
    · exact hnil
    · exact hpress
  | confirming =>
    rw [hstate] at hphase hcommands
    obtain ⟨hone,-,hpressed,htwice⟩ := hphase
    have hnil : s.signalWaits.eraseIdx i = [] := List.length_eq_zero_iff.mp (by omega)
    have hboth : PressedTwice (s.log ++ [Event.signal none]) := pressedTwice_snoc.mpr (Or.inr ⟨rfl,hpressed⟩)
    simp only [State.handleSignal,State.eventSigint,emit,State.emitSignals]
    constructor
    · simpa using hcommands
    · simp [hnil]
    · exact ⟨by simp [hnil],(hboth.append [.exited]).append _⟩

theorem timerEnds (h : Watch s) {i : ℕ} {timer : Timer} (hcomplete : s.timer.complete i = some timer) :
    Watch { s with timer := timer } := by
  have hphase := h.phase
  have hnumbers := Timer.numbers_complete hcomplete
  refine ⟨h.commands,h.alive,?_⟩
  cases hstate : s.state with
  | exitState =>
    rw [hstate] at hphase
    exact hphase
  | confirming =>
    rw [hstate] at hphase
    obtain ⟨hone,⟨n,hn,hlive,hlast⟩,hpresses⟩ := hphase
    have hlast' : n + 1 = timer.started := hlast.trans (Timer.started_complete hcomplete).symm
    exact ⟨hone,⟨n,hnumbers.trans hn,(Timer.live_complete hcomplete).trans hlive,hlast'⟩,hpresses⟩
  | inactive =>
    rw [hstate] at hphase
    exact ⟨hphase.1,hnumbers.trans hphase.2.1,hphase.2.2⟩
  | waiting =>
    rw [hstate] at hphase
    exact ⟨hphase.1,hnumbers.trans hphase.2.1,hphase.2.2⟩

/-- A confirmation period ends when its wait has expired; a wait that was cancelled does nothing. -/
theorem handleTimer (h : Watch s) {i : ℕ} {ec : ErrorCode} {timer : Timer} (htake : s.timer.take i = some (ec,timer)) :
    Watch ({ s with timer := timer }.handleTimer ec) := by
  obtain ⟨n,hn,hnumbers⟩ := Timer.numbers_take htake
  have hcommands := h.commands
  have hphase := h.phase
  have hsome : s.timer.numbers ≠ [] := by
    intro hnil
    simp [hnil] at hn
  cases hstate : s.state with
  | inactive => exact absurd (hstate ▸ hphase).2.1 hsome
  | waiting => exact absurd (hstate ▸ hphase).2.1 hsome
  | exitState =>
    rw [hstate] at hphase hcommands
    have hafter : Phase (s.log ++ [Event.timer ec]) timer s.signalWaits.length .exitState :=
      ⟨hphase.1,hphase.2.append _⟩
    simp only [State.handleTimer,emit]
    split
    · exact ⟨hcommands,h.alive,hafter⟩
    · exact ⟨hcommands,h.alive,hafter⟩
  | confirming =>
    rw [hstate] at hphase hcommands
    obtain ⟨hone,⟨m,hm,hlive,hlast⟩,hpressed,htwice⟩ := hphase
    have hnone : timer.numbers = [] := hnumbers.trans (Timer.numbers_erase_single hm hn)
    cases ec with
    | some e =>
      have hdead := (Timer.live_take_some htake).1
      rw [hlive,Timer.live_of_numbers_nil hnone] at hdead
      simp at hdead
    | none =>
      have hnot : ¬ PressedTwice (s.log ++ [Event.timer none]) := (pressedTwice_other (by simp)).not.mpr htwice
      simp only [State.handleTimer,emit]
      exact ⟨by simpa using hcommands,h.alive,hone,hnone,not_pressed_expiry s.log,hnot⟩

end Watch

def unstopped (_ : State) : Action → Bool
  | .stop _ => false
  | _ => true

theorem watch_step {s t : State} (h : Watch s) {a : Action} (hok : unstopped s a = true) (ha : Step s a t) :
    Watch t := by
  cases ha with
  | stopNow => cases hok
  | stopLater => cases hok
  | addNow =>
    have hcounted : Watch { s with slots := s.slots + 1 } := h.frame rfl rfl (Grows.refl s.log)
    exact hcounted.handleAddSlot s.slots
  | addLater => exact h.frame rfl (by simp [Task.isCommand]) (Grows.refl s.log)
  | runTask task tasks hframes htasks =>
    cases task with
    | start => exact h.handleStart htasks
    | stop =>
      have hcommands := h.commands
      rw [htasks,List.filter_cons_of_pos (by rfl)] at hcommands
      split at hcommands
      · cases hcommands
      · cases hcommands
    | addSlot slot =>
      have htaken : Watch { s with tasks := tasks } := h.frame rfl (by simp [htasks,Task.isCommand]) (Grows.refl s.log)
      exact htaken.handleAddSlot slot
  | deliver => exact h.deliver
  | signalAborted i hi =>
    have hcancelled := h.alive _ (List.mem_of_getElem? hi)
    simp at hcancelled
  | handleSignal i ec hframes hi =>
    have hdone := h.alive _ (List.mem_of_getElem? hi)
    obtain rfl : ec = none := by simpa using hdone
    exact h.handleSignal hi
  | timerEnds i timer hcomplete => exact h.timerEnds hcomplete
  | handleTimer i ec timer hframes htake => exact h.handleTimer htake
  | runSlot slot number rest outer hframes => exact h.frame rfl rfl ((Grows.refl s.log).snoc rfl)
  | loopEnds number outer hframes => exact h.frame rfl rfl (Grows.refl s.log)
  | slotReturns outer hframes => exact h.frame rfl rfl (Grows.refl s.log)

/-! ## The slots -/

def Task.slot? : Task → Option ℕ
  | .addSlot slot => some slot
  | _ => none

/-- An event that does not concern the slots. -/
def Event.besides : Event → Bool
  | .exited => false
  | .added _ => false
  | .invoked _ => false
  | _ => true

def CallOrder (before : List Event) : Event → Prop
  | .invoked _ => .exited ∈ before
  | _ => True

def CalledAtOnce (log : List Event) : Prop :=
  ∀ before slot after, log = before ++ .added slot :: after → .exited ∈ before → ∃ rest, after = .invoked slot :: rest

section Slots

variable {log : List Event} {e : Event}

theorem added_snoc (log : List Event) (e : Event) : added (log ++ [e]) = added log ++ e.added?.toList := by
  rw [added,List.filterMap_append,filterMap_cons_toList]
  simp [added]

theorem invoked_snoc (log : List Event) (e : Event) : invoked (log ++ [e]) = invoked log ++ e.invoked?.toList := by
  rw [invoked,List.filterMap_append,filterMap_cons_toList]
  simp [invoked]

theorem takeWhile_of_not_mem (h : .exited ∉ log) : log.takeWhile (· != .exited) = log := by
  refine List.takeWhile_eq_self_iff.mpr fun e he => ?_
  have hne : e ≠ .exited := by
    rintro rfl
    exact h he
  simpa using hne

/-- What was added early is settled when the exit is confirmed. -/
theorem early_append (h : .exited ∈ log) (k : List Event) : early (log ++ k) = early log := by
  obtain ⟨before,after,rfl⟩ := List.append_of_mem h
  induction before with
  | nil => rfl
  | cons e before ih =>
    have hrest := ih (by simp)
    simp only [early,List.cons_append,List.takeWhile_cons] at hrest ⊢
    split
    · simp only [added,filterMap_cons_toList] at hrest ⊢
      rw [hrest]
    · rfl

theorem early_exited (h : .exited ∉ log) : early (log ++ [Event.exited]) = added log := by
  rw [early,List.takeWhile_append,takeWhile_of_not_mem h]
  simp

/-- After the exit the early slots are settled, and one more of them may have been called. -/
theorem calledEarly_snoc (h : .exited ∈ log) (e : Event) :
    calledEarly (log ++ [e]) = calledEarly log ++ e.invoked?.toList.filter (early log).contains := by
  rw [calledEarly,early_append h,invoked_snoc,List.filter_append,← calledEarly]

theorem CalledAtOnce.snoc (h : CalledAtOnce log) (he : ∀ slot, e = .added slot → .exited ∉ log) :
    CalledAtOnce (log ++ [e]) := by
  intro before slot after hlog hexit
  rcases Chronicle.split_snoc hlog with ⟨rfl,rfl,-⟩ | ⟨init,rfl,hinit⟩
  · exact absurd hexit (he slot rfl)
  · obtain ⟨rest,rfl⟩ := h before slot init hinit hexit
    exact ⟨rest ++ [e],rfl⟩

/-- A slot is added and called. -/
theorem CalledAtOnce.call (h : CalledAtOnce log) (slot : ℕ) :
    CalledAtOnce ((log ++ [Event.added slot]) ++ [Event.invoked slot]) := by
  intro before slot' after hlog hexit
  rcases Chronicle.split_snoc hlog with ⟨-,he,-⟩ | ⟨init,rfl,hinit⟩
  · cases he
  · rcases Chronicle.split_snoc hinit with ⟨-,he,rfl⟩ | ⟨init',rfl,hinit'⟩
    · obtain rfl := Event.added.inj he
      exact ⟨[],rfl⟩
    · obtain ⟨rest,rfl⟩ := h before slot' init' hinit' hexit
      exact ⟨(rest ++ [Event.added slot]) ++ [Event.invoked slot],by simp⟩

end Slots

structure Account (s : State) (r : Roster) : Prop where
  added : r.added = s.slots
  complete : r.Complete
  invoked : r.invoked = invoked s.log
  pending : r.pending.Perm (s.tasks.filterMap Task.slot? ++ (s.signals ++ waiting s.frames))

/-- Before the exit the slots are kept in the order in which they were added; after it they are called in that order. -/
structure Calls (s : State) : Prop where
  quiet : s.state ≠ .exitState → s.frames = [] ∧ .exited ∉ s.log ∧ s.signals = added s.log ∧ invoked s.log = []
  exit : s.state = .exitState → .exited ∈ s.log ∧ s.signals = [] ∧
    calledEarly s.log ++ waiting s.frames = early s.log
  order : Chronicle CallOrder s.log
  atOnce : CalledAtOnce s.log

namespace Calls

variable {s t : State}

theorem init : Calls State.init where
  quiet := fun _ => ⟨rfl,by simp [State.init],rfl,rfl⟩
  exit := by simp [State.init]
  order := Chronicle.nil
  atOnce := by simp [CalledAtOnce,State.init]

theorem besides (h : Calls s) {e : Event} (he : e.besides = true) : Calls (s.emit e) := by
  have hadded : e.added? = none := by cases e <;> first | rfl | cases he
  have hinvoked : e.invoked? = none := by cases e <;> first | rfl | cases he
  have hexited : e ≠ .exited := by
    rintro rfl
    cases he
  constructor
  · intro hstate
    obtain ⟨hframes,hexit,hsignals,hnone⟩ := h.quiet hstate
    refine ⟨hframes,?_,?_,?_⟩
    · simp [emit,hexit,hexited.symm]
    · simp [emit,added_snoc,hadded,hsignals]
    · simp [emit,invoked_snoc,hinvoked,hnone]
  · intro hstate
    obtain ⟨hexit,hnil,horder⟩ := h.exit hstate
    refine ⟨List.mem_append_left _ hexit,hnil,?_⟩
    simpa [emit,calledEarly_snoc hexit,hinvoked,early_append hexit] using horder
  · refine h.order.snoc ?_
    cases e with
    | invoked slot => cases he
    | _ => trivial
  · refine h.atOnce.snoc ?_
    rintro slot rfl
    cases he

theorem frame (h : Calls s) (hstate : t.state = .exitState ↔ s.state = .exitState)
    (hsame : (t.log,t.signals,t.frames) = (s.log,s.signals,s.frames)) : Calls t := by
  simp only [Prod.mk.injEq] at hsame
  obtain ⟨hlog,hsignals,hframes⟩ := hsame
  constructor
  · rw [ne_eq,hstate,hlog,hsignals,hframes]
    exact h.quiet
  · rw [hstate,hlog,hsignals,hframes]
    exact h.exit
  · rw [hlog]
    exact h.order
  · rw [hlog]
    exact h.atOnce

theorem keep (h : Calls s) (hstate : s.state ≠ .exitState) (slot : ℕ) :
    Calls ({ s with signals := s.signals ++ [slot] }.emit (.added slot)) := by
  obtain ⟨hframes,hexit,hsignals,hnone⟩ := h.quiet hstate
  constructor
  · intro _
    refine ⟨hframes,?_,?_,?_⟩
    · simpa [emit] using hexit
    · simp [emit,added_snoc,hsignals,Event.added?]
    · simp [emit,invoked_snoc,hnone,Event.invoked?]
  · exact fun hstate' => absurd hstate' hstate
  · exact h.order.snoc trivial
  · exact h.atOnce.snoc fun _ _ => hexit

theorem call (h : Calls s) (hstate : s.state = .exitState) {slot : ℕ} (hnew : slot ∉ early s.log) :
    Calls (({ s with frames := .call () :: s.frames }.emit (.added slot)).emit (.invoked slot)) := by
  obtain ⟨hexit,hnil,horder⟩ := h.exit hstate
  have hmem : .exited ∈ s.log ++ [Event.added slot] := List.mem_append_left _ hexit
  have hsettled : early ((s.log ++ [Event.added slot]) ++ [Event.invoked slot]) = early s.log := by
    rw [early_append hmem,early_append hexit]
  have hcalled : calledEarly ((s.log ++ [Event.added slot]) ++ [Event.invoked slot]) = calledEarly s.log := by
    rw [calledEarly_snoc hmem,calledEarly_snoc hexit,early_append hexit]
    simp [Event.invoked?,hnew]
  constructor
  · exact fun hstate' => absurd hstate hstate'
  · intro _
    refine ⟨List.mem_append_left _ hmem,hnil,?_⟩
    simp only [emit]
    rw [hsettled,hcalled]
    exact horder
  · have hadded : Chronicle CallOrder (s.log ++ [Event.added slot]) := h.order.snoc trivial
    exact hadded.snoc hmem
  · exact h.atOnce.call slot

theorem next (h : Calls s) {slot number : ℕ} {rest : List ℕ} {outer : List (Frame ℕ Unit)}
    (hframes : s.frames = .batch number (slot :: rest) :: outer) :
    Calls ({ s with frames := .call () :: .batch number rest :: outer }.emit (.invoked slot)) := by
  have hstate : s.state = .exitState := by
    by_contra hne
    simp [(h.quiet hne).1] at hframes
  obtain ⟨hexit,hnil,horder⟩ := h.exit hstate
  rw [hframes] at horder
  have hearly : slot ∈ early s.log := by
    rw [← horder]
    simp
  constructor
  · exact fun hstate' => absurd hstate hstate'
  · intro _
    refine ⟨List.mem_append_left _ hexit,hnil,?_⟩
    simpa [emit,calledEarly_snoc hexit,Event.invoked?,early_append hexit,hearly] using horder
  · exact h.order.snoc hexit
  · refine h.atOnce.snoc ?_
    rintro _ ⟨⟩

theorem exits (h : Calls s) (hstate : s.state ≠ .exitState) (timer : Timer) :
    Calls (({ s with timer := timer, state := .exitState } : State).emit .exited).emitSignals := by
  obtain ⟨hframes,hexit,hsignals,hnone⟩ := h.quiet hstate
  have hsettled : early ((s.log ++ [Event.exited]) ++ [Event.asserted true]) = s.signals := by
    rw [early_append (by simp),early_exited hexit,hsignals]
  have hcalled : calledEarly ((s.log ++ [Event.exited]) ++ [Event.asserted true]) = [] := by
    rw [calledEarly,invoked_snoc,invoked_snoc,hnone]
    rfl
  constructor
  · simp [emit,emitSignals]
  · intro _
    refine ⟨by simp [emit,emitSignals],rfl,?_⟩
    simp only [emit,emitSignals]
    rw [show (StateType.exitState == StateType.exitState) = true from rfl,hsettled,hcalled]
    simp [hframes]
  · have hexited : Chronicle CallOrder (s.log ++ [Event.exited]) := h.order.snoc trivial
    exact hexited.snoc trivial
  · have hexited : CalledAtOnce (s.log ++ [Event.exited]) := h.atOnce.snoc (by rintro _ ⟨⟩)
    exact hexited.snoc (by rintro _ ⟨⟩)

end Calls

structure Emission (s : State) : Prop where
  calls : Calls s
  account : ∃ r, Account s r

namespace Emission

variable {s t : State}

theorem init : Emission State.init where
  calls := Calls.init
  account := ⟨Roster.empty,rfl,by simp [Roster.Complete,Roster.empty],rfl,List.Perm.refl _⟩

theorem besides (h : Emission s) {e : Event} (he : e.besides = true) : Emission (s.emit e) := by
  have hinvoked : e.invoked? = none := by cases e <;> first | rfl | cases he
  obtain ⟨r,hr⟩ := h.account
  refine ⟨h.calls.besides he,r,hr.added,hr.complete,?_,hr.pending⟩
  simp [emit,invoked_snoc,hinvoked,hr.invoked]

theorem frame (h : Emission s) (hstate : t.state = .exitState ↔ s.state = .exitState)
    (hsame : (t.log,t.signals,t.frames) = (s.log,s.signals,s.frames)) (hslots : t.slots = s.slots)
    (htasks : t.tasks.filterMap Task.slot? = s.tasks.filterMap Task.slot?) : Emission t := by
  obtain ⟨r,hr⟩ := h.account
  refine ⟨h.calls.frame hstate hsame,r,?_,hr.complete,?_,?_⟩
  · rw [hslots,hr.added]
  · rw [(Prod.mk.inj hsame).1,hr.invoked]
  · simp only [Prod.mk.injEq] at hsame
    rw [htasks,hsame.2.1,hsame.2.2]
    exact hr.pending

/-- What was added early was called, or is about to be. -/
theorem of_early (h : Calls s) (hstate : s.state = .exitState) {slot : ℕ} (hearly : slot ∈ early s.log) :
    slot ∈ invoked s.log ∨ slot ∈ waiting s.frames := by
  rw [← (h.exit hstate).2.2,List.mem_append] at hearly
  exact hearly.imp (fun hcalled => (List.mem_filter.mp hcalled).1) id

/-- `add_slot` runs with a slot that the roster still has to be called. -/
theorem handleAddSlot (h : Calls s) {r : Roster} {slot : ℕ} (hadded : r.added = s.slots) (hcomplete : r.Complete)
    (hinvoked : r.invoked = invoked s.log)
    (hpending : r.pending.Perm (slot :: (s.tasks.filterMap Task.slot? ++ (s.signals ++ waiting s.frames)))) :
    Emission (s.handleAddSlot slot) := by
  by_cases hstate : s.state = .exitState
  · have hnew : slot ∉ early s.log := by
      intro hearly
      rcases of_early h hstate hearly with hcalled | hwaits
      · exact r.not_pending (hinvoked ▸ hcalled) (hpending.mem_iff.mpr List.mem_cons_self)
      · have hnodup := hpending.nodup_iff.mp r.pending_nodup
        exact (List.nodup_cons.mp hnodup).1 (List.mem_append_right _ (List.mem_append_right _ hwaits))
    have hstep : s.handleAddSlot slot =
        ({ s with frames := .call () :: s.frames }.emit (.added slot)).emit (.invoked slot) := by
      simp only [State.handleAddSlot,hstate]
    rw [hstep]
    refine ⟨h.call hstate hnew,r.invoke slot _ hpending,hadded,hcomplete.invoke hpending,?_,List.Perm.refl _⟩
    simp only [Roster.invoke,emit]
    rw [invoked_snoc,invoked_snoc,hinvoked]
    simp [Event.invoked?]
  · have hstep : s.handleAddSlot slot = { s with signals := s.signals ++ [slot] }.emit (.added slot) := by
      simp only [State.handleAddSlot]
      split
      · next hexit => exact absurd hexit hstate
      all_goals rfl
    rw [hstep]
    have hcalled : r.invoked = invoked (s.log ++ [Event.added slot]) := by simp [invoked_snoc,hinvoked,Event.invoked?]
    refine ⟨h.keep hstate slot,r,hadded,hcomplete,hcalled,hpending.trans ?_⟩
    have hmove : (slot :: (s.tasks.filterMap Task.slot? ++ (s.signals ++ waiting s.frames))).Perm
        (s.tasks.filterMap Task.slot? ++ (slot :: (s.signals ++ waiting s.frames))) := List.perm_middle.symm
    refine hmove.trans (List.Perm.append_left _ ?_)
    simpa [emit] using List.perm_middle.symm

theorem handleSignal (h : Emission s) (ec : ErrorCode) : Emission (s.handleSignal ec) := by
  cases ec with
  | some e =>
    simp only [State.handleSignal]
    split
    · exact (h.besides (e := .signal (some e)) rfl).besides (e := .processExit 100) rfl
    · exact h.besides (e := .signal (some e)) rfl
  | none =>
    have hpressed : Emission (s.emit (.signal none)) := h.besides rfl
    simp only [State.handleSignal,State.eventSigint]
    split
    · next hstate =>
      have hconfirms : Emission ({ s.emit (.signal none) with state := .confirming } : State).awaitTimer := by
        have hframe : Emission { s.emit (.signal none) with state := .confirming, timer := s.timer.cancel.asyncWait } :=
          hpressed.frame (by simp [hstate]) rfl rfl rfl
        exact hframe.besides (e := .awaitTimer) rfl
      obtain ⟨n,st,-,hawait⟩ :=
        Watch.awaitSignal ({ s.emit (.signal none) with state := .confirming } : State).awaitTimer
      rw [hawait]
      have hawaits := hconfirms.besides (e := .awaitSignal) rfl
      exact hawaits.frame Iff.rfl rfl rfl rfl
    · next hstate =>
      have hne : (s.emit (.signal none)).state ≠ .exitState := by simp [hstate]
      obtain ⟨r,hr⟩ := hpressed.account
      refine ⟨hpressed.calls.exits hne _,r,hr.added,hr.complete,?_,?_⟩
      · simp only [emitSignals,emit,invoked_snoc]
        simpa [emit,invoked_snoc,Event.invoked?] using hr.invoked
      · simpa [emitSignals,emit] using hr.pending
    · exact hpressed
    · exact hpressed

theorem handleTimer (h : Emission s) (ec : ErrorCode) : Emission (s.handleTimer ec) := by
  have htimer : Emission (s.emit (.timer ec)) := h.besides rfl
  simp only [State.handleTimer]
  split
  · exact htimer
  · split
    · exact htimer
    · exact htimer
    · exact htimer
    · next hstate => exact htimer.frame (by simp [hstate]) rfl rfl rfl

/-- A frame with nothing left to call is left. -/
theorem unwind (h : Emission s) {f : Frame ℕ Unit} {outer : List (Frame ℕ Unit)} (hframes : s.frames = f :: outer)
    (hrest : f.rest = []) : Emission { s with frames := outer } := by
  have hwaiting : waiting s.frames = waiting outer := by simp [hframes,waiting,hrest]
  obtain ⟨r,hr⟩ := h.account
  refine ⟨⟨?_,?_,h.calls.order,h.calls.atOnce⟩,r,hr.added,hr.complete,hr.invoked,hwaiting ▸ hr.pending⟩
  · intro hstate
    simp [(h.calls.quiet hstate).1] at hframes
  · intro hstate
    exact hwaiting ▸ h.calls.exit hstate

theorem step (h : Emission s) (hstart : ∀ tasks, s.tasks = .start :: tasks → s.state ≠ .exitState) {a : Action}
    (ha : Step s a t) : Emission t := by
  obtain ⟨r,hr⟩ := h.account
  cases ha with
  | stopNow => exact h.frame Iff.rfl rfl rfl rfl
  | stopLater => exact h.frame Iff.rfl rfl rfl (by simp [Task.slot?])
  | addNow =>
    have hcalls : Calls { s with slots := s.slots + 1 } := h.calls.frame Iff.rfl rfl
    apply handleAddSlot hcalls (r := r.add)
    · simp [Roster.add,hr.added]
    · exact hr.complete.add
    · exact hr.invoked
    · simp only [Roster.add,hr.added]
      exact (List.perm_append_singleton _ _).trans (hr.pending.cons _)
  | addLater =>
    refine ⟨h.calls.frame Iff.rfl rfl,r.add,by simp [Roster.add,hr.added],hr.complete.add,hr.invoked,?_⟩
    have hnew : (r.pending ++ [r.added]).Perm
        (r.added :: (s.tasks.filterMap Task.slot? ++ (s.signals ++ waiting s.frames))) :=
      (List.perm_append_singleton _ _).trans (hr.pending.cons _)
    refine hnew.trans ?_
    simpa [hr.added,Task.slot?] using List.perm_middle.symm
  | runTask task tasks hframes htasks =>
    cases task with
    | start =>
      obtain ⟨n,st,-,hawait⟩ := Watch.awaitSignal { s with tasks := tasks, registered := true }
      have hawaits := h.besides (e := .awaitSignal) rfl
      have hstep : { s with tasks := tasks }.runTask .start = { s with
          tasks := tasks, registered := true, undelivered := n, signalWaits := s.signalWaits ++ [st],
          log := s.log ++ [Event.awaitSignal], state := .waiting } := by
        simp only [State.runTask,State.handleStart]
        rw [hawait]
      rw [hstep]
      have hslots : tasks.filterMap Task.slot? = s.tasks.filterMap Task.slot? := by
        rw [htasks]
        rfl
      exact hawaits.frame (by simp [emit,hstart tasks htasks]) rfl rfl hslots
    | stop =>
      have hslots : tasks.filterMap Task.slot? = s.tasks.filterMap Task.slot? := by
        rw [htasks]
        rfl
      exact h.frame Iff.rfl rfl rfl hslots
    | addSlot slot =>
      have hcalls : Calls { s with tasks := tasks } := h.calls.frame Iff.rfl rfl
      apply handleAddSlot hcalls hr.added hr.complete hr.invoked
      simpa [htasks,Task.slot?] using hr.pending
  | deliver =>
    unfold State.deliver
    split
    · exact h.frame Iff.rfl rfl rfl rfl
    · exact h.frame Iff.rfl rfl rfl rfl
  | signalAborted i hi => exact h.frame Iff.rfl rfl rfl rfl
  | handleSignal i ec hframes hi =>
    have htaken : Emission { s with signalWaits := s.signalWaits.eraseIdx i } := h.frame Iff.rfl rfl rfl rfl
    exact htaken.handleSignal ec
  | timerEnds i timer hcomplete => exact h.frame Iff.rfl rfl rfl rfl
  | handleTimer i ec timer hframes htake =>
    have htaken : Emission { s with timer := timer } := h.frame Iff.rfl rfl rfl rfl
    exact htaken.handleTimer ec
  | runSlot slot number rest outer hframes =>
    have hpending :
        r.pending.Perm (slot :: (s.tasks.filterMap Task.slot? ++ (s.signals ++ (rest ++ waiting outer)))) := by
      refine hr.pending.trans ?_
      rw [hframes,waiting_batch,List.cons_append,← List.append_assoc,← List.append_assoc]
      exact List.perm_middle
    refine ⟨h.calls.next hframes,r.invoke slot _ hpending,hr.added,hr.complete.invoke hpending,?_,List.Perm.refl _⟩
    simp [Roster.invoke,emit,invoked_snoc,Event.invoked?,hr.invoked]
  | loopEnds number outer hframes => exact h.unwind hframes rfl
  | slotReturns outer hframes => exact h.unwind hframes rfl

end Emission

structure Sound (s : State) : Prop where
  watch : Watch s
  emission : Emission s

abbrev running : Machine State Action := machine.restrict unstopped

theorem not_start {s : State} (h : Watch s) (hstate : s.state = .exitState) (tasks : List Task) :
    s.tasks ≠ .start :: tasks := by
  intro htasks
  have hcommands := h.commands
  rw [htasks,List.filter_cons_of_pos (by rfl),hstate] at hcommands
  cases hcommands

theorem sound_step {s t : State} (h : Sound s) {a : Action} (ha : running.step s a = some t) : Sound t := by
  obtain ⟨hok,hstep⟩ := Machine.restrict_step_iff.mp ha
  have hcases := step_cases hstep
  refine ⟨watch_step h.watch hok hcases,h.emission.step ?_ hcases⟩
  exact fun tasks htasks hexit => not_start h.watch hexit tasks htasks

theorem sound_of_reachable {s : State} (h : running.Reachable s) : Sound s := by
  refine h.invariant (I := Sound) ?_ fun s a t hs ha => sound_step hs ha
  rintro s rfl
  exact ⟨Watch.init,Emission.init⟩

structure Confirmed (s : State) : Prop where
  signal : s.state = .waiting ∨ s.state = .confirming → s.signalWaits.length = 1
  /-- The wait of a confirmation period is the last one that was started. -/
  timer : s.state = .confirming → ∃ n, s.timer.numbers = [n] ∧ n + 1 = s.timer.started
  noTimer : s.state = .waiting → s.timer.numbers = []
  exit : s.state = .exitState ↔ PressedTwice s.log
  exited : s.state = .exitState ↔ .exited ∈ s.log
  /-- A slot is called after the exit only, and once. -/
  order : Chronicle CallOrder s.log
  once : (invoked s.log).Nodup
  /-- After the exit every slot was called, is about to be, or has not been added yet. -/
  all : s.state = .exitState → ∀ n < s.slots, n ∈ invoked s.log ∨ n ∈ waiting s.frames ∨ .addSlot n ∈ s.tasks
  inOrder : s.state = .exitState → calledEarly s.log ++ waiting s.frames = early s.log
  atOnce : CalledAtOnce s.log

theorem confirmed_of_sound {s : State} (h : Sound s) : Confirmed s := by
  have hphase := h.watch.phase
  obtain ⟨r,hr⟩ := h.emission.account
  constructor
  · rintro (hstate | hstate)
    · rw [hstate] at hphase
      exact hphase.1
    · rw [hstate] at hphase
      exact hphase.1
  · intro hstate
    rw [hstate] at hphase
    obtain ⟨-,⟨n,hn,-,hlast⟩,-⟩ := hphase
    exact ⟨n,hn,hlast⟩
  · intro hstate
    rw [hstate] at hphase
    exact hphase.2.1
  · constructor
    · intro hstate
      rw [hstate] at hphase
      exact hphase.2
    · intro htwice
      cases hstate : s.state with
      | exitState => rfl
      | _ =>
        rw [hstate] at hphase
        exact absurd htwice hphase.2.2.2
  · refine ⟨fun hstate => (h.emission.calls.exit hstate).1,fun hexit => ?_⟩
    by_contra hne
    exact (h.emission.calls.quiet hne).2.1 hexit
  · exact h.emission.calls.order
  · exact hr.invoked ▸ r.invoked_nodup
  · intro hstate n hn
    have hnil := (h.emission.calls.exit hstate).2.1
    have hmem := hr.complete n (hr.added ▸ hn)
    rw [List.mem_append,hr.pending.mem_iff,hr.invoked,hnil] at hmem
    rcases hmem with hpending | hcalled
    · rcases List.mem_append.mp hpending with htask | hwaits
      · obtain ⟨task,hqueued,hslot⟩ := List.mem_filterMap.mp htask
        cases task with
        | addSlot slot =>
          obtain rfl : slot = n := Option.some.inj hslot
          exact Or.inr (Or.inr hqueued)
        | _ => cases hslot
      · exact Or.inr (Or.inl hwaits)
    · exact Or.inl hcalled
  · exact fun hstate => (h.emission.calls.exit hstate).2.2
  · exact h.emission.calls.atOnce

theorem handleAddSlot_state (s : State) (slot : ℕ) : (s.handleAddSlot slot).state = s.state := by
  unfold State.handleAddSlot
  split <;> rfl

/-- No step leaves the exit. -/
theorem exit_step {s t : State} (h : Watch s) (hstate : s.state = .exitState) {a : Action} (ha : Step s a t) :
    t.state = .exitState := by
  cases ha with
  | addNow => exact (handleAddSlot_state _ _).trans hstate
  | runTask task tasks hframes htasks =>
    cases task with
    | start => exact absurd htasks (not_start h hstate tasks)
    | stop => exact hstate
    | addSlot slot => exact (handleAddSlot_state _ _).trans hstate
  | deliver =>
    unfold State.deliver
    split <;> exact hstate
  | handleSignal i ec hframes hi =>
    cases ec with
    | some e =>
      simp only [State.handleSignal]
      split <;> exact hstate
    | none => simp only [State.handleSignal,State.eventSigint,emit,hstate]
  | handleTimer i ec timer hframes htake =>
    simp only [State.handleTimer,emit,hstate]
    split <;> rfl
  | _ => exact hstate

/-- Every run confirms an interrupt by a second one, and none leaves the exit again. -/
theorem confirms_by_second_press {s : State} (h : running.Reachable s) :
    Confirmed s ∧ ∀ as t, running.Exec s as t → s.state = .exitState → t.state = .exitState := by
  have hs := sound_of_reachable h
  refine ⟨confirmed_of_sound hs,fun as t hexec hstate => ?_⟩
  have hkept := hexec.invariant (I := fun u => Sound u ∧ u.state = .exitState) ?_ ⟨hs,hstate⟩
  · exact hkept.2
  · intro u a v hu ha
    exact ⟨sound_step hu.1 ha,exit_step hu.1.watch hu.2 (step_cases (Machine.restrict_step_iff.mp ha).2)⟩

/-- A slot is added before `start` runs. The first interrupt is not confirmed in time; the expiry of the second one
crosses its confirmation. The second slot adds a third one. -/
def pressedInTime : List Action :=
  [.addSlot true,.runTask,.deliver,.handleSignal 0,.timerEnds 0,.handleTimer 0,.addSlot false,.runTask,.deliver,
    .handleSignal 0,.deliver,.timerEnds 0,.handleSignal 0,.runSlot,.slotReturns,.runSlot,.addSlot true,.slotReturns,
    .slotReturns,.loopEnds,.handleTimer 0]

theorem confirms_pressedInTime : ∃ s, running.replay State.init pressedInTime = some s ∧ invoked s.log = [0,1,2] ∧
    Confirmed s ∧ ∀ as t, running.Exec s as t → s.state = .exitState → t.state = .exitState :=
  have hrun : running.replay State.init pressedInTime = some _ := rfl
  ⟨_,rfl,rfl,confirms_by_second_press (Machine.Reachable.of_replay rfl hrun)⟩

end SigintState
end BeastWebsocketEcho
