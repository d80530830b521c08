import BeastWebsocketEcho.ChatterboxApp
import BeastWebsocketEcho.Chronicle

/-!
# How the chatterbox program ends

The program makes one connection. Until it is told to stop it waits for a signal; a signal or a
command to quit then reaches the connection, the console and the wait for a signal alike, unless
they have ended before.
-/

namespace BeastWebsocketEcho
namespace ChatterboxConnection

variable {B : Type*} {c d : State B}

/-- The connection was told to stop, or will be when its strand runs. -/
def Told (c : State B) : Prop := c.ec.isSome = true ∨ .handleStop ∈ c.tasks

section Functions

variable (c : State B)

@[simp] theorem ec_maybeSendNext : (c.maybeSendNext).ec = c.ec := by
  unfold State.maybeSendNext
  split <;> rfl

@[simp] theorem tasks_maybeSendNext : (c.maybeSendNext).tasks = c.tasks := by
  unfold State.maybeSendNext
  split <;> rfl

theorem handleStop_told : c.handleStop.ec.isSome = true := by
  cases hstate : c.state <;> simp [State.handleStop,State.emit,hstate]

end Functions

theorem Told.execute (h : c.ec.isSome = true) (task : Task B) : (c.execute task).ec.isSome = true := by
  cases task with
  | handleRun => exact h
  | handleStop => exact handleStop_told c
  | handleSend msg => simpa [State.execute,State.handleSend] using h

theorem Told.frame (h : Told c) (hec : d.ec = c.ec) (htasks : d.tasks = c.tasks) : Told d := by
  unfold Told
  rwa [hec,htasks]

theorem Told.dispatch (h : Told c) (task : Task B) (inl : Bool) (hkeep : inl = true → task = .handleStop ∨
    ∃ msg, task = .handleSend msg) : Told (c.dispatch task inl) := by
  cases inl with
  | false => exact h.imp id fun hmem => List.mem_append_left _ hmem
  | true =>
    rcases hkeep rfl with rfl | ⟨msg,rfl⟩
    · exact Or.inl (handleStop_told c)
    · exact h.frame (by simp [State.dispatch,State.execute,State.handleSend])
        (by simp [State.dispatch,State.execute,State.handleSend])

theorem told_stop (c : State B) (inl : Bool) : Told (c.dispatch .handleStop inl) := by
  cases inl with
  | true => exact Or.inl (handleStop_told c)
  | false => exact Or.inr (by simp [State.dispatch])

theorem told_step {a : Action B} (h : Told c) (hcall : ConnectionPool.isCall a = false) (hstep : step c a = some d) :
    Told d := by
  cases a with
  | dispatch task inl => cases hcall
  | runTask i =>
    obtain ⟨task,htask,rfl⟩ := Option.map_eq_some_iff.mp hstep
    rcases h with hec | hmem
    · exact Or.inl (Told.execute (c := { c with tasks := c.tasks.eraseIdx i }) hec task)
    · rcases mem_eraseIdx_or_eq hmem htask with rfl | hrest
      · exact Or.inl (handleStop_told _)
      · have hwaits : Told { c with tasks := c.tasks.eraseIdx i } := Or.inr hrest
        cases task with
        | handleRun => exact hwaits
        | handleStop => exact Or.inl (handleStop_told _)
        | handleSend msg =>
          exact hwaits.frame (by simp [State.execute,State.handleSend]) (by simp [State.execute,State.handleSend])
  | connectCompletes i ec =>
    obtain ⟨ops,-,rfl⟩ := Option.map_eq_some_iff.mp hstep
    exact h
  | handshakeCompletes i ec =>
    obtain ⟨ops,-,rfl⟩ := Option.map_eq_some_iff.mp hstep
    exact h
  | readCompletes i r =>
    obtain ⟨ops,-,rfl⟩ := Option.map_eq_some_iff.mp hstep
    exact h
  | writeCompletes i ec =>
    obtain ⟨ops,-,rfl⟩ := Option.map_eq_some_iff.mp hstep
    exact h
  | closeCompletes i ec =>
    obtain ⟨ops,-,rfl⟩ := Option.map_eq_some_iff.mp hstep
    exact h
  | connected i =>
    obtain ⟨⟨ec,ops⟩,-,rfl⟩ := Option.map_eq_some_iff.mp hstep
    cases ec <;> exact h
  | handshook i =>
    obtain ⟨⟨ec,ops⟩,-,rfl⟩ := Option.map_eq_some_iff.mp hstep
    dsimp only [State.handleHandshake]
    split
    · exact h
    · split
      · exact h
      · exact h.frame (by simp [State.initiateRx,State.emit]) (by simp [State.initiateRx,State.emit])
  | read i inl =>
    obtain ⟨⟨r,ops⟩,-,rfl⟩ := Option.map_eq_some_iff.mp hstep
    cases r with
    | error e => exact h
    | ok bytes =>
      have hreads : Told ({ ({ c with reads := ops } : State B).emit (.readDone none) with
          rxbuffer := (c.rxbuffer ++ bytes).drop (c.rxbuffer ++ bytes).length } : State B).initiateRx := h
      exact hreads.dispatch (.handleSend (c.rxbuffer ++ bytes)) inl fun _ => Or.inr ⟨_,rfl⟩
  | written i =>
    obtain ⟨⟨ec,ops⟩,-,rfl⟩ := Option.map_eq_some_iff.mp hstep
    cases ec with
    | some e => exact h
    | none => exact h.frame (by simp [State.handleTx,State.emit]) (by simp [State.handleTx,State.emit])
  | closed i =>
    obtain ⟨⟨ec,ops⟩,-,rfl⟩ := Option.map_eq_some_iff.mp hstep
    exact h

/-- A connection that nothing keeps alive does nothing by itself. -/
theorem finished_step {a : Action B} (h : ConnectionPool.finished c = true) (hcall : ConnectionPool.isCall a = false) :
    step c a = none := by
  simp only [ConnectionPool.finished,Bool.and_eq_true,List.isEmpty_iff] at h
  obtain ⟨⟨⟨⟨⟨htasks,hconnects⟩,hhandshakes⟩,hreads⟩,hwrites⟩,hcloses⟩ := h
  cases a with
  | dispatch task inl => cases hcall
  | _ => simp [step,completeAt,takeAt,htasks,hconnects,hhandshakes,hreads,hwrites,hcloses]

def Settled (c : State B) : Prop := Told c ∨ ConnectionPool.finished c = true

theorem settled_step {a : Action B} (h : Settled c) (hcall : ConnectionPool.isCall a = false)
    (hstep : step c a = some d) : Settled d := by
  rcases h with htold | hgone
  · exact Or.inl (told_step htold hcall hstep)
  · rw [finished_step hgone hcall] at hstep
    cases hstep

end ChatterboxConnection

namespace Console

/-- The operation has ended, or its error code is set. -/
def Over (s : State) : Prop := s.point = .ended ∨ s.ec.isSome = true

/-- The operation has not ended, and has not forgotten an error. -/
structure Goes (s t : State) : Prop where
  log : ∃ k, t.log = s.log ++ k ∧ k.filterMap ChatterboxApp.invocation? = []
  runOp : t.runOp = s.runOp
  ec : s.ec.isSome = true → t.ec.isSome = true
  point : s.point = .ended → t.point = .ended

/-- The operation has ended, and has invoked its handler at most once. -/
structure Ends (s t : State) : Prop where
  log : ∃ k, t.log = s.log ++ k ∧ (k.filterMap ChatterboxApp.invocation?).length ≤ 1
  point : t.point = .ended

def Move (s t : State) : Prop := Goes s t ∨ Ends s t

namespace Goes

variable {s t : State}

theorem snoc (h : Goes s t) {e : Event} (he : ChatterboxApp.invocation? e = none) : Goes s (t.emit e) := by
  obtain ⟨k,hlog,hk⟩ := h.log
  exact ⟨⟨k ++ [e],by simp [State.emit,hlog],by simp [hk,he]⟩,h.runOp,h.ec,h.point⟩

theorem finish (h : Goes s t) : Ends s t.finish := by
  obtain ⟨k,hlog,hk⟩ := h.log
  refine ⟨⟨k ++ [.completed t.ec t.lastEvent (t.stage == .published) true],?_,?_⟩,rfl⟩
  · simp [State.finish,State.emit,hlog]
  · simp [hk,ChatterboxApp.invocation?]

theorem loop (h : Goes s t) (hpoint : s.point ≠ .ended) : Move s (t.loop true) := by
  unfold State.loop
  split
  · exact Or.inl ⟨h.log,h.runOp,h.ec,fun hended => absurd hended hpoint⟩
  · exact Or.inr h.finish

theorem examine (h : Goes s t) (hpoint : s.point ≠ .ended) (n : ℕ) : Move s (t.examine n true) := by
  have hlooked : Goes s (t.emit (.examined (t.rxstore.take n))) := h.snoc rfl
  have hgoes : Goes s { t.emit (.examined (t.rxstore.take n)) with rxstore := t.rxstore.drop n } :=
    ⟨hlooked.log,hlooked.runOp,hlooked.ec,hlooked.point⟩
  have hquits : Goes s { t.emit (.examined (t.rxstore.take n)) with
      rxstore := t.rxstore.drop n, lastEvent := .quit } := ⟨hgoes.log,hgoes.runOp,hgoes.ec,hgoes.point⟩
  dsimp only [State.examine]
  split
  · exact Or.inr hquits.finish
  · exact hgoes.loop hpoint

end Goes

theorem move_resume (s : State) (ec : ErrorCode) (n : ℕ) : Move s (s.resume ec n true) := by
  have hresumed : Goes s { s.emit (.resumed ec) with ec := if ec.isSome && s.ec.isNone then ec else s.ec } := by
    refine ⟨⟨[.resumed ec],rfl,rfl⟩,rfl,fun hsome => ?_,id⟩
    cases hec : s.ec with
    | none => simp [hec] at hsome
    | some e => simp
  cases hpoint : s.point with
  | start =>
    have hloop := hresumed.loop (by simp [hpoint])
    simpa only [State.resume,State.emit,hpoint] using hloop
  | reading =>
    have hexamine := hresumed.examine (by simp [hpoint]) n
    simpa only [State.resume,State.emit,hpoint] using hexamine
  | posting =>
    have hfinish := hresumed.finish
    exact Or.inr (by simpa only [State.resume,State.emit,hpoint] using hfinish)
  | ended => exact Or.inl (by simpa only [State.resume,State.emit,hpoint] using hresumed)

theorem move_step {s t : State} {a : Action} (ha : ChatterboxApp.consoleActs a = true) (h : step s a = some t) :
    Move s t := by
  cases a with
  | runTask i reached =>
    obtain ⟨-,hrun⟩ := Option.ite_none_right_eq_some.mp h
    obtain ⟨task,-,rfl⟩ := Option.map_eq_some_iff.mp hrun
    cases task with
    | cancel => exact Or.inl ⟨⟨[.cancelled],rfl,rfl⟩,rfl,fun _ => rfl,id⟩
    | expression => exact Or.inl ⟨⟨[],(List.append_nil _).symm,rfl⟩,rfl,id,id⟩
  | arrive i chunk =>
    obtain ⟨-,harrive⟩ := Option.ite_none_right_eq_some.mp h
    obtain rfl := Option.some.inj harrive
    refine Or.inl ⟨⟨[.arrived chunk],?_,rfl⟩,?_,?_,?_⟩
    all_goals
      simp only [State.arrive,State.emit]
      split <;> simp
  | fail i e =>
    obtain ⟨reads,-,rfl⟩ := Option.map_eq_some_iff.mp h
    exact Or.inl ⟨⟨[],(List.append_nil _).symm,rfl⟩,rfl,id,id⟩
  | resume i =>
    obtain ⟨-,hresume⟩ := Option.ite_none_right_eq_some.mp h
    obtain ⟨⟨x,reads⟩,-,rfl⟩ := Option.map_eq_some_iff.mp hresume
    rcases move_resume { s with reads := reads } (resultOf x).1 (resultOf x).2 with hgoes | hended
    · exact Or.inl ⟨hgoes.log,hgoes.runOp,hgoes.ec,hgoes.point⟩
    · exact Or.inr ⟨hended.log,hended.point⟩
  | _ => cases ha

theorem Over.move {s t : State} (h : Over s) (hmove : Move s t) : Over t := by
  rcases hmove with hgoes | hended
  · exact h.imp hgoes.point hgoes.ec
  · exact Or.inl hended.point

theorem loop_ended {s : State} (h : s.ec.isSome = true) : (s.loop true).point = .ended := by
  cases hec : s.ec with
  | none => simp [hec] at h
  | some e => simp [State.loop,State.done,State.finish,State.emit,hec]

/-- What is resumed with an error code ends, whatever it is resumed with. -/
theorem Over.resumed {s t : State} (h : Over s) {i : ℕ} (hstep : step s (.resume i) = some t) : t.point = .ended := by
  obtain ⟨-,hresume⟩ := Option.ite_none_right_eq_some.mp hstep
  obtain ⟨⟨x,reads⟩,-,rfl⟩ := Option.map_eq_some_iff.mp hresume
  have hsome : s.point ≠ .ended →
      (if (resultOf x).1.isSome && s.ec.isNone then (resultOf x).1 else s.ec).isSome = true := by
    intro hnot
    cases hec : s.ec with
    | none => exact absurd hec (Option.ne_none_iff_isSome.mpr (h.resolve_left hnot))
    | some e => simp
  cases hpoint : s.point with
  | start =>
    simp only [State.resume,State.emit]
    exact loop_ended (hsome (by simp [hpoint]))
  | reading =>
    simp only [State.resume,State.emit,State.examine]
    split
    · rfl
    · exact loop_ended (hsome (by simp [hpoint]))
  | posting => simp [State.resume,State.emit,State.finish]
  | ended => simp [State.resume,State.emit]

end Console

namespace ChatterboxApp

open ChatterboxConnection (Settled Told told_stop settled_step)
open Console (Over)

variable {B : Type*} {s t : State B}

/-- The program was told to stop: by a signal, or by a command to quit. -/
def Stopping (log : List Event) : Prop := (∃ sig, .signal (.ok sig) ∈ log) ∨ ∃ event, .console none event ∈ log

theorem stopping_snoc {log : List Event} {e : Event} :
    Stopping (log ++ [e]) ↔ Stopping log ∨ (∃ sig, e = .signal (.ok sig)) ∨ ∃ event, e = .console none event := by
  simp only [Stopping,List.mem_append,List.mem_singleton,exists_or,eq_comm (b := e)]
  tauto

/-- The wait for a signal: it was handled, or is the only one and as it should be. -/
inductive Watch (s : State B) : Prop
  | handled (result : Except Error ℕ) (hsignals : s.signals = []) (hlog : .signal result ∈ s.log)
  | waits (st : Status (Except Error ℕ)) (hsignals : s.signals = [st]) (hlog : ∀ result, .signal result ∉ s.log)
      (hpending : st = .pending → ¬ Stopping s.log) (hcancelled : st = .cancelled → Stopping s.log)

/-- The pool while the program runs: it has one connection, which it knows. -/
def Running (clients : ConnectionPool.State B) : Prop :=
  ∀ i, i < clients.conns.length → ∃ ep, (ep,i) ∈ clients.connections

structure Stopped (clients : ConnectionPool.State B) : Prop where
  ec : clients.ec.isSome = true
  connections : clients.connections = []
  settled : ∀ c ∈ clients.conns, Settled c

structure Sound (s : State B) : Prop where
  fresh : s.posted = true → s = State.init
  idle : s.clients.timer.waits = [] ∧ s.clients.tasks = []
  one : s.posted = false → s.clients.conns.length ≤ 1
  made : s.posted = false → s.bombed = false → s.clients.conns.length = 1
  watch : s.posted = false → Watch s
  live : s.posted = false → s.console.runOp = true ∨ s.console.point = .ended
  running : s.bombed = false → ¬ Stopping s.log → Running s.clients
  stopped : Stopping s.log → s.bombed = false ∧ Stopped s.clients
  ended : Stopping s.log → Over s.console

section Pool

variable {clients : ConnectionPool.State B} {o : ConnectionPool.Outcome}

theorem throws_append {before after : ConnectionPool.State B} {k : List ConnectionPool.Event}
    (h : after.log = before.log ++ k) :
    State.throws before after = k.any threw := by
  unfold State.throws
  rw [h,List.drop_left]

theorem throws_stop (clients : ConnectionPool.State B) (o : ConnectionPool.Outcome) :
    State.throws clients (clients.execute o .stop) = false := throws_append (k := [.stopped]) rfl

theorem stopAll_length (clients : ConnectionPool.State B) (o : ConnectionPool.Outcome) :
    (clients.stopAll o).length = clients.conns.length := by
  unfold ConnectionPool.State.stopAll
  generalize clients.connections = cache
  generalize clients.conns = conns
  induction cache generalizing conns with
  | nil => rfl
  | cons x cache ih =>
    rw [List.foldl_cons,ih]
    split
    · rfl
    · exact List.length_modify _ _ _

/-- What was told to stop stays so while the others are told. -/
theorem settled_stopAll (cache : List (ChatServer.Endpoint × ℕ)) (conns : List (ChatterboxConnection.State B)) {i : ℕ}
    {c : ChatterboxConnection.State B} (hc : (cache.foldl (fun conns x => if x.2 ∈ o.expired then conns
      else conns.modify x.2 fun c => c.dispatch .handleStop o.inl) conns)[i]? = some c)
    (h : (∃ ep, (ep,i) ∈ cache ∧ i ∉ o.expired) ∨ ∀ d, conns[i]? = some d → Settled d) : Settled c := by
  induction cache generalizing conns with
  | nil =>
    rcases h with ⟨ep,hmem,-⟩ | hsettled
    · simp at hmem
    · exact hsettled c hc
  | cons x cache ih =>
    rw [List.foldl_cons] at hc
    refine ih _ hc ?_
    rcases h with ⟨ep,hmem,hnot⟩ | hsettled
    · rcases List.mem_cons.mp hmem with rfl | hrest
      · refine Or.inr fun d hd => ?_
        rw [if_neg hnot,List.getElem?_modify_eq] at hd
        obtain ⟨e,-,rfl⟩ := Option.map_eq_some_iff.mp hd
        exact Or.inl (told_stop e o.inl)
      · exact Or.inl ⟨ep,hrest,hnot⟩
    · refine Or.inr fun d hd => ?_
      split at hd
      · exact hsettled d hd
      · by_cases hi : x.2 = i
        · subst hi
          rw [List.getElem?_modify_eq] at hd
          obtain ⟨e,-,rfl⟩ := Option.map_eq_some_iff.mp hd
          exact Or.inl (told_stop e o.inl)
        · rw [List.getElem?_modify_ne _ _ hi] at hd
          exact hsettled d hd

/-- `handle_stop` reaches every connection that the pool knows, and those that are gone need not be reached. -/
theorem stopped_execute (h : Running clients ∨ Stopped clients) (hpossible : o.possible clients = true) :
    Stopped (clients.execute o .stop) := by
  refine ⟨rfl,rfl,fun c hc => ?_⟩
  obtain ⟨i,hi⟩ := List.getElem?_of_mem hc
  refine settled_stopAll clients.connections clients.conns hi ?_
  have hlength : i < clients.conns.length := by
    rw [← stopAll_length clients o]
    exact (List.getElem?_eq_some_iff.mp hi).1
  rcases h with hrunning | hstopped
  · by_cases hexpired : i ∈ o.expired
    · refine Or.inr fun d hd => Or.inr ?_
      have hgone := List.all_eq_true.mp hpossible i hexpired
      simpa [hd] using hgone
    · obtain ⟨ep,hep⟩ := hrunning i hlength
      exact Or.inl ⟨ep,hep,hexpired⟩
  · exact Or.inr fun d hd => hstopped.settled d (List.mem_of_getElem? hd)

end Pool

theorem Watch.frame (h : Watch s) (hsignals : t.signals = s.signals) (hlog : t.log = s.log) : Watch t := by
  cases h with
  | handled result h₁ h₂ => exact Watch.handled result (hsignals.trans h₁) (by rwa [hlog])
  | waits st h₁ h₂ h₃ h₄ => exact Watch.waits st (hsignals.trans h₁) (by rwa [hlog]) (by rwa [hlog]) (by rwa [hlog])

theorem sound_handleRun (o : ConnectionPool.Outcome) :
    Sound (({ State.init with posted := false } : State B).handleRun o) := by
  have hstopping : ¬ Stopping ([.ran] : List Event) := by simp [Stopping]
  have hwatch (clients : ConnectionPool.State B) (console : Console.State) (bombed : Bool) :
      Watch ⟨false,[.pending],console,clients,bombed,[.ran]⟩ :=
    Watch.waits .pending rfl (by simp) (fun _ => hstopping) (by simp)
  have hconsole : (Console.State.init.publish.call).runOp = true := rfl
  cases hresult : o.result with
  | error e =>
    have hrun : ({ State.init with posted := false } : State B).handleRun o =
        ⟨false,[.pending],Console.State.init.publish.call,⟨none,Timer.idle,[],[],[],[.ran,.threw e]⟩,true,[.ran]⟩ := by
      simp [State.handleRun,State.callClients,State.initiateConsole,State.emit,State.init,ConnectionPool.State.execute,
        ConnectionPool.State.handleRun,ConnectionPool.State.anotherConnection,ConnectionPool.State.init,
        ConnectionPool.State.emit,State.throws,threw,hresult]
    rw [hrun]
    exact ⟨nofun,⟨rfl,rfl⟩,fun _ => Nat.zero_le 1,nofun,fun _ => hwatch _ _ _,fun _ => Or.inl hconsole,nofun,
      fun h => absurd h hstopping,fun h => absurd h hstopping⟩
  | ok endpoint =>
    cases endpoint with
    | error e =>
      have hrun : ({ State.init with posted := false } : State B).handleRun o =
          ⟨false,[.pending],Console.State.init.publish.call,⟨none,Timer.idle,[],[],
            [ChatterboxConnection.State.init.dispatch .handleRun o.inl],[.ran,.created,.threw e]⟩,true,[.ran]⟩ := by
        simp [State.handleRun,State.callClients,State.initiateConsole,State.emit,State.init,
          ConnectionPool.State.execute,ConnectionPool.State.handleRun,ConnectionPool.State.anotherConnection,
          ConnectionPool.State.init,ConnectionPool.State.emit,State.throws,threw,hresult]
      rw [hrun]
      exact ⟨nofun,⟨rfl,rfl⟩,fun _ => le_rfl,nofun,fun _ => hwatch _ _ _,fun _ => Or.inl hconsole,nofun,
        fun h => absurd h hstopping,fun h => absurd h hstopping⟩
    | ok ep =>
      have hrun : ({ State.init with posted := false } : State B).handleRun o =
          ⟨false,[.pending],Console.State.init.publish.call,⟨none,Timer.idle,[(ep,0)],[],
            [ChatterboxConnection.State.init.dispatch .handleRun o.inl],[.ran,.created]⟩,false,[.ran]⟩ := by
        simp [State.handleRun,State.callClients,State.initiateConsole,State.emit,State.init,
          ConnectionPool.State.execute,ConnectionPool.State.handleRun,ConnectionPool.State.anotherConnection,
          ConnectionPool.State.init,ConnectionPool.State.emit,State.throws,threw,ChatServer.assign,hresult]
      rw [hrun]
      refine ⟨nofun,⟨rfl,rfl⟩,fun _ => le_rfl,fun _ _ => rfl,fun _ => hwatch _ _ _,fun _ => Or.inl hconsole,
        fun _ _ i hi => ⟨ep,?_⟩,fun h => absurd h hstopping,fun h => absurd h hstopping⟩
      obtain rfl : i = 0 := by simpa using hi
      simp

theorem Sound.ready (h : Sound s) (hbombed : s.bombed = false) : Running s.clients ∨ Stopped s.clients := by
  by_cases hstopping : Stopping s.log
  · exact Or.inr (h.stopped hstopping).2
  · exact Or.inl (h.running hbombed hstopping)

theorem Sound.stop (h : Sound s) (hposted : s.posted = false) (hbombed : s.bombed = false) {o : ConnectionPool.Outcome}
    (hpossible : o.possible s.clients = true) (hclients : t.clients = s.clients.execute o .stop)
    (hsame : (t.posted,t.bombed) = (false,false)) (hwatch : Watch t) (hover : Over t.console)
    (hlive : t.console.runOp = true ∨ t.console.point = .ended) (hstopping : Stopping t.log) : Sound t := by
  simp only [Prod.mk.injEq] at hsame
  have hlength : t.clients.conns.length = s.clients.conns.length := by
    rw [hclients]
    exact stopAll_length s.clients o
  refine ⟨fun hp => ?_,?_,fun _ => hlength.trans_le (h.one hposted),fun _ _ => hlength.trans (h.made hposted hbombed),
    fun _ => hwatch,fun _ => hlive,fun _ hnot => absurd hstopping hnot,fun _ => ⟨hsame.2,?_⟩,fun _ => hover⟩
  · rw [hsame.1] at hp
    cases hp
  · rw [hclients]
    exact ⟨by simp [ConnectionPool.State.execute,ConnectionPool.State.handleStop,Timer.cancel,h.idle.1],h.idle.2⟩
  · rw [hclients]
    exact stopped_execute (h.ready hbombed) hpossible

/-- What touches only the wait for a signal, and tells nobody to stop. -/
theorem Sound.noted (h : Sound s) (hposted : s.posted = false)
    (hsame : (t.posted,t.bombed,t.console,t.clients) = (s.posted,s.bombed,s.console,s.clients))
    (hstopping : Stopping t.log ↔ Stopping s.log) (hwatch : Watch t) : Sound t := by
  simp only [Prod.mk.injEq] at hsame
  obtain ⟨hpost,hbombed,hconsole,hclients⟩ := hsame
  refine ⟨fun hp => ?_,hclients ▸ h.idle,fun _ => hclients ▸ h.one hposted,fun _ hb => hclients ▸ h.made hposted ?_,
    fun _ => hwatch,fun _ => hconsole ▸ h.live hposted,fun hb hnot => hclients ▸ h.running ?_ ?_,fun hs => ?_,
    fun hs => hconsole ▸ h.ended (hstopping.mp hs)⟩
  · simp [hpost,hposted] at hp
  · exact hbombed ▸ hb
  · exact hbombed ▸ hb
  · exact fun hs => hnot (hstopping.mpr hs)
  · rw [hbombed,hclients]
    exact h.stopped (hstopping.mp hs)

theorem Sound.signalled (h : Sound s) (hposted : s.posted = false) (hbombed : s.bombed = false)
    {o : ConnectionPool.Outcome} (hpossible : o.possible s.clients = true) (result : Except Error ℕ) (reached : Bool) :
    Sound ({ s with signals := [] }.handleSignal result o reached) := by
  have hmem : Event.signal result ∈ s.log ++ [Event.signal result] := by simp
  cases result with
  | error e =>
    have hsame : Stopping (s.log ++ [Event.signal (.error e)]) ↔ Stopping s.log := by simp [stopping_snoc]
    exact h.noted hposted rfl hsame (Watch.handled _ rfl hmem)
  | ok sig =>
    have hstopping : Stopping (s.log ++ [Event.signal (.ok sig)]) := Or.inl ⟨sig,hmem⟩
    by_cases hrunOp : s.console.runOp = true
    · have hcancel : { s with signals := [] }.handleSignal (.ok sig) o reached =
          { s with
            signals := [], log := s.log ++ [.signal (.ok sig)], clients := s.clients.execute o .stop, bombed := false
            console := { s.console with loaded := s.console.loaded + 1 }.cancel true reached } := by
        simp [State.handleSignal,State.callClients,State.cancelConsole,State.emit,hrunOp,throws_stop]
      rw [hcancel]
      refine h.stop hposted hbombed hpossible rfl (by rw [hposted]) (Watch.handled _ rfl hmem) (Or.inr rfl) ?_ hstopping
      exact Or.inl hrunOp
    · have hleft : { s with signals := [] }.handleSignal (.ok sig) o reached =
          { s with
            signals := [], log := s.log ++ [.signal (.ok sig)], clients := s.clients.execute o .stop,
            bombed := false } := by
        simp [State.handleSignal,State.callClients,State.cancelConsole,State.emit,hrunOp,throws_stop]
      have hended := (h.live hposted).resolve_left hrunOp
      rw [hleft]
      exact h.stop hposted hbombed hpossible rfl (by rw [hposted]) (Watch.handled _ rfl hmem) (Or.inl hended)
        (Or.inr hended) hstopping

theorem Sound.acted (h : Sound s) (hposted : s.posted = false) {console : Console.State}
    (hmove : Console.Move s.console console) : Sound { s with console := console } := by
  have hlive : console.runOp = true ∨ console.point = .ended := by
    rcases hmove with hgoes | hended
    · exact (h.live hposted).imp hgoes.runOp.trans hgoes.point
    · exact Or.inr hended.point
  exact ⟨fun hp => (Bool.eq_false_iff.mp hposted hp).elim,h.idle,h.one,h.made,fun hp => (h.watch hp).frame rfl rfl,
    fun _ => hlive,h.running,h.stopped,fun hs => (h.ended hs).move hmove⟩

theorem Sound.handled (h : Sound s) (hposted : s.posted = false) (hbombed : s.bombed = false)
    {o : ConnectionPool.Outcome} (hpossible : o.possible s.clients = true) (hended : s.console.point = .ended)
    (ec : ErrorCode) (event : Console.ConsoleEvent) : Sound (s.handleConsole o ec event) := by
  have hsignal (log : List Event) (result : Except Error ℕ) : .signal result ∈ log ++ [Event.console ec event] ↔
      .signal result ∈ log := by simp
  cases ec with
  | some e =>
    have hsame : Stopping (s.log ++ [Event.console (some e) event]) ↔ Stopping s.log := by simp [stopping_snoc]
    refine h.noted hposted rfl hsame ?_
    cases h.watch hposted with
    | handled result hsignals hlog => exact Watch.handled result hsignals ((hsignal _ _).mpr hlog)
    | waits st hsignals hlog hpending hcancelled =>
      exact Watch.waits st hsignals (fun result hmem => hlog result ((hsignal _ _).mp hmem))
        (fun hst hs => hpending hst (hsame.mp hs)) fun hst => hsame.mpr (hcancelled hst)
  | none =>
    cases event with
    | quit =>
      have hstopping : Stopping (s.log ++ [Event.console none .quit]) := Or.inr ⟨.quit,by simp⟩
      have hquit : s.handleConsole o none .quit = { s with
          clients := s.clients.execute o .stop, bombed := false, log := s.log ++ [.console none .quit]
          signals := s.signals.map Status.cancel } := by
        simp [State.handleConsole,State.callClients,State.emit,throws_stop]
      rw [hquit]
      refine h.stop hposted hbombed hpossible rfl (by rw [hposted]) ?_ (Or.inl hended) (Or.inr hended) hstopping
      cases h.watch hposted with
      | handled result hsignals hlog =>
        exact Watch.handled result (by simp [hsignals]) ((hsignal _ _).mpr hlog)
      | waits st hsignals hlog hpending hcancelled =>
        refine Watch.waits st.cancel (by simp [hsignals]) (fun result hmem => hlog result ((hsignal _ _).mp hmem)) ?_
          fun _ => hstopping
        cases st <;> simp [Status.cancel]

theorem Sound.connection (h : Sound s) (hposted : s.posted = false) (hbombed : s.bombed = false) {i : ℕ}
    {a : ChatterboxConnection.Action B} {c d : ChatterboxConnection.State B} (hc : s.clients.conns[i]? = some c)
    (hcall : ConnectionPool.isCall a = false) (hd : ChatterboxConnection.step c a = some d) :
    Sound { s with clients := { s.clients with conns := s.clients.conns.set i d } } := by
  refine ⟨fun hp => (Bool.eq_false_iff.mp hposted hp).elim,h.idle,fun hp => ?_,fun hp hb => ?_,
    fun hp => (h.watch hp).frame rfl rfl,h.live,fun hb hnot j hj => ?_,fun hs => ⟨hbombed,?_⟩,h.ended⟩
  · exact (List.length_set).trans_le (h.one hp)
  · exact (List.length_set).trans (h.made hp hb)
  · exact h.running hb hnot j (hj.trans_eq List.length_set)
  · obtain ⟨-,hstopped⟩ := h.stopped hs
    refine ⟨hstopped.ec,hstopped.connections,fun e he => ?_⟩
    rcases List.mem_or_eq_of_mem_set he with hold | rfl
    · exact hstopped.settled e hold
    · exact settled_step (hstopped.settled c (List.mem_of_getElem? hc)) hcall hd

theorem sound_init : Sound (State.init : State B) := by
  have hstopping : ¬ Stopping ([] : List Event) := by simp [Stopping]
  exact ⟨fun _ => rfl,⟨rfl,rfl⟩,nofun,nofun,nofun,nofun,fun _ _ i hi => absurd hi (Nat.not_lt_zero i),
    fun h => absurd h hstopping,fun h => absurd h hstopping⟩

/-- Until `handle_run` runs, nothing else does. -/
theorem posted_step {a : Action B} (hstep : step (State.init : State B) a = some t) :
    ∃ o, a = .handleRun o ∧ t = ({ State.init with posted := false } : State B).handleRun o := by
  cases a with
  | handleRun o =>
    obtain ⟨-,hrun⟩ := Option.ite_none_right_eq_some.mp hstep
    exact ⟨o,rfl,(Option.some.inj hrun).symm⟩
  | signalCompletes i result => simp [step,completeAt,State.init] at hstep
  | signalled i o reached => simp [step,takeAt,State.init] at hstep
  | console a o =>
    obtain ⟨⟨-,hacts,-⟩,hconsole⟩ := Option.ite_none_right_eq_some.mp hstep
    obtain ⟨c,hc,-⟩ := Option.map_eq_some_iff.mp hconsole
    cases a with
    | publish | call | load | cancel onExecutor reached => cases hacts
    | _ => simp [Console.step,State.init,Console.State.init,completeAt,takeAt] at hc
  | clients a =>
    obtain ⟨⟨-,hact⟩,hclients⟩ := Option.ite_none_right_eq_some.mp hstep
    obtain ⟨clients,hc,-⟩ := Option.map_eq_some_iff.mp hclients
    cases a with
    | dispatch task onExecutor o => cases hact
    | _ => simp [ConnectionPool.step,State.init,ConnectionPool.State.init,Timer.idle,Timer.complete,Timer.take] at hc

theorem sound_step {a : Action B} (h : Sound s) (hstep : step s a = some t) : Sound t := by
  cases hposted : s.posted with
  | true =>
    obtain rfl := h.fresh hposted
    obtain ⟨o,-,rfl⟩ := posted_step hstep
    exact sound_handleRun o
  | false =>
    cases a with
    | handleRun o =>
      obtain ⟨⟨-,hp,-⟩,-⟩ := Option.ite_none_right_eq_some.mp hstep
      rw [hposted] at hp
      cases hp
    | signalCompletes i result =>
      obtain ⟨-,hcompletes⟩ := Option.ite_none_left_eq_some.mp hstep
      obtain ⟨signals,hsignals,rfl⟩ := Option.map_eq_some_iff.mp hcompletes
      refine h.noted hposted rfl Iff.rfl ?_
      cases h.watch hposted with
      | handled result hnone hlog => simp [hnone,completeAt] at hsignals
      | waits st hone hlog hpending hcancelled =>
        obtain ⟨st',hbind,rfl⟩ := Option.map_eq_some_iff.mp hsignals
        obtain ⟨st₀,hget,hst⟩ := Option.bind_eq_some_iff.mp hbind
        obtain ⟨rfl,-⟩ := Status.complete_cases hst
        cases i with
        | zero => exact Watch.waits (.done result) (by simp [hone]) hlog (by simp) (by simp)
        | succ i => simp [hone] at hget
    | signalled i o reached =>
      obtain ⟨⟨hbombed,hpossible⟩,htaken⟩ := Option.ite_none_right_eq_some.mp hstep
      obtain ⟨⟨result,signals⟩,htake,rfl⟩ := Option.map_eq_some_iff.mp htaken
      obtain ⟨hget,rfl⟩ := takeAt_cases htake
      have hnone : s.signals.eraseIdx i = [] := by
        cases h.watch hposted with
        | handled result hnone hlog => simp [hnone]
        | waits st hone hlog hpending hcancelled =>
          cases i with
          | zero => simp [hone]
          | succ i => simp [hone] at hget
      rw [hnone]
      exact h.signalled hposted hbombed hpossible result reached
    | console a o =>
      obtain ⟨⟨hbombed,hacts,hpossible⟩,hconsole⟩ := Option.ite_none_right_eq_some.mp hstep
      obtain ⟨c,hc,rfl⟩ := Option.map_eq_some_iff.mp hconsole
      have hmove := Console.move_step hacts hc
      have hacted := h.acted hposted hmove
      rcases hmove with hgoes | hended
      · obtain ⟨k,hlog,hk⟩ := hgoes.log
        have hinvocations : invocations s.console c = [] := by
          unfold invocations
          rw [hlog,List.drop_left,hk]
        rw [hinvocations]
        exact hacted
      · obtain ⟨k,hlog,hk⟩ := hended.log
        have hinvocations : invocations s.console c = k.filterMap invocation? := by
          unfold invocations
          rw [hlog,List.drop_left]
        rw [hinvocations]
        -- the handler is moved out before it is invoked, so that it is not invoked again
        cases hcalls : k.filterMap invocation? with
        | nil => exact hacted
        | cons x rest =>
          obtain rfl : rest = [] := by simpa [hcalls] using hk
          exact hacted.handled hposted hbombed hpossible hended.point x.1 x.2
    | clients a =>
      obtain ⟨⟨hbombed,hact⟩,hclients⟩ := Option.ite_none_right_eq_some.mp hstep
      obtain ⟨clients,hc,rfl⟩ := Option.map_eq_some_iff.mp hclients
      obtain ⟨hwaits,htasks⟩ := h.idle
      cases a with
      | dispatch task onExecutor o => cases hact
      | runTask i o => simp [ConnectionPool.step,htasks] at hc
      | timerEnds i => simp [ConnectionPool.step,Timer.complete,hwaits] at hc
      | timed i o => simp [ConnectionPool.step,Timer.take,hwaits] at hc
      | connection i a =>
        obtain ⟨hcall,hbind⟩ := Option.ite_none_left_eq_some.mp hc
        obtain ⟨c,hget,hmap⟩ := Option.bind_eq_some_iff.mp hbind
        obtain ⟨d,hd,rfl⟩ := Option.map_eq_some_iff.mp hmap
        have hsound := h.connection hposted hbombed hget (Bool.eq_false_iff.mpr hcall) hd
        have hthrows : State.throws s.clients { s.clients with conns := s.clients.conns.set i d } = false :=
          throws_append (k := []) (List.append_nil _).symm
        rw [hthrows,← hbombed]
        exact hsound

theorem sound_reachable (h : (machine B).Reachable s) : Sound s := by
  refine h.invariant (I := Sound) (fun s hs => ?_) fun s a t hsound hstep => sound_step (a := a) hsound hstep
  rw [show s = State.init from hs]
  exact sound_init

/-- The program makes one connection at most. While it runs it waits for a signal, unless that wait has failed. When it
was told to stop, the connection and the wait for a signal were told too, where they had not ended; and the console has
ended, or ends when it is resumed next. -/
theorem program_shuts_down (h : (machine B).Reachable s) :
    s.clients.conns.length ≤ 1 ∧
    (s.posted = false → ¬ Stopping s.log → (∀ e, .signal (.error e) ∉ s.log) →
      ∃ st, s.signals = [st] ∧ st ≠ .cancelled) ∧
    (Stopping s.log → s.bombed = false ∧ s.clients.ec.isSome = true ∧ s.clients.connections = [] ∧
      (∀ c ∈ s.clients.conns, Settled c) ∧ .pending ∉ s.signals ∧ Over s.console ∧
        ∀ i c, Console.step s.console (.resume i) = some c → c.point = .ended) := by
  have hsound := sound_reachable h
  have hposted (hstopping : Stopping s.log) : s.posted = false := by
    by_contra hnot
    have hinit := hsound.fresh (Bool.eq_true_of_not_eq_false hnot)
    rw [hinit] at hstopping
    simp [Stopping,State.init] at hstopping
  refine ⟨?_,fun hp hnot hfailed => ?_,fun hstopping => ?_⟩
  · cases hp : s.posted with
    | true =>
      rw [hsound.fresh hp]
      exact Nat.zero_le 1
    | false => exact hsound.one hp
  · cases hsound.watch hp with
    | handled result hsignals hlog =>
      cases result with
      | ok sig => exact absurd (Or.inl ⟨sig,hlog⟩) hnot
      | error e => exact absurd hlog (hfailed e)
    | waits st hsignals hlog hpending hcancelled => exact ⟨st,hsignals,fun hst => hnot (hcancelled hst)⟩
  · obtain ⟨hbombed,hstopped⟩ := hsound.stopped hstopping
    have hover := hsound.ended hstopping
    refine ⟨hbombed,hstopped.ec,hstopped.connections,hstopped.settled,?_,hover,fun i c hc => hover.resumed hc⟩
    cases hsound.watch (hposted hstopping) with
    | handled result hsignals hlog => simp [hsignals]
    | waits st hsignals hlog hpending hcancelled =>
      rw [hsignals,List.mem_singleton]
      exact fun hst => hpending hst.symm hstopping

/-- A signal comes while the first read of the console waits and the connection has not begun. -/
def interrupted : State ℕ :=
  ⟨false,[],{ Console.State.init.publish.call with
      ec := some .operationAborted, reads := [.cancelled], log := [.resumed none,.cancelled] },
    ⟨some .operationAborted,Timer.idle,[],[],
      [(ChatterboxConnection.State.init.dispatch .handleRun false).dispatch .handleStop false],
      [.ran,.created,.stopped]⟩,
    false,[.ran,.signal (.ok 2)]⟩

theorem program_shuts_down_interrupted : Stopping interrupted.log ∧
    (∀ c ∈ interrupted.clients.conns, Settled c) ∧ .pending ∉ interrupted.signals ∧ Over interrupted.console ∧
      ∀ i c, Console.step interrupted.console (.resume i) = some c → c.point = .ended := by
  have hstopping : Stopping interrupted.log := Or.inl ⟨2,by simp [interrupted]⟩
  have hrun : (machine ℕ).replay State.init
      [.handleRun ⟨.ok (.ok ⟨"10.0.0.1",4000⟩),[],false⟩,.signalCompletes 0 (.ok 2),
      .signalled 0 ⟨.ok (.ok ⟨"10.0.0.1",4000⟩),[],false⟩ true] = some interrupted := rfl
  have hreach : (machine ℕ).Reachable interrupted := Machine.Reachable.of_replay rfl hrun
  obtain ⟨-,-,-,hsettled,hsignals,hover⟩ := (program_shuts_down hreach).2.2 hstopping
  exact ⟨hstopping,hsettled,hsignals,hover⟩

end ChatterboxApp
end BeastWebsocketEcho
