import BeastWebsocketEcho.EchoConnectionSteps
import BeastWebsocketEcho.EchoServerRuns

/-!
# The echo server as a program

`main` calls `run` of the `app` before the executor runs, so that its `handle_run` waits there; it
waits for a signal and starts the server. The server and its connections are on the same executor,
and an exception that leaves one of their handlers ends the program. The server runs once and is
stopped once at most, so that no stop is lost.
-/

namespace BeastWebsocketEcho
namespace EchoApp

open ChatServer (AcceptResult)

inductive Event
  | ran
  | signal (result : Except Error ℕ)
  /-- The server's `handle_accept`. -/
  | accepted (result : AcceptResult)

structure State where
  posted : Bool
  signals : List (Status (Except Error ℕ))
  server : EchoServer.State
  bombed : Bool
  log : List Event

def threw : EchoServer.Event → Bool
  | .threw _ => true
  | _ => false

/-- Whether a handler of the server has thrown since the server was `before`. -/
def throws (before after : EchoServer.State) : Bool := (after.log.drop before.log.length).any threw

namespace State

def init : State := ⟨true,[],EchoServer.State.init,false,[]⟩

def emit (s : State) (e : Event) : State := { s with log := s.log ++ [e] }

def handleRun (s : State) : State :=
  { s.emit .ran with
    signals := s.signals ++ [.pending]
    server := (s.server.emit .run).submit .handleRun true false }

def handleSignal (s : State) (result : Except Error ℕ) (inl : Bool) : State :=
  let s := s.emit (.signal result)
  match result with
  | .ok _ => { s with server := s.server.submit .handleStop true inl }
  | .error _ => s

end State

def signalFailed : Except Error ℕ → Bool
  | .ok _ => false
  | .error _ => true

inductive Action
  | handleRun
  | signalCompletes (i : ℕ) (result : Except Error ℕ)
  | signalled (i : ℕ) (inl : Bool)
  | acceptCompletes (i : ℕ) (result : AcceptResult)
  | accepted (i : ℕ) (inl : Bool)
  | connection (i : ℕ) (a : EchoConnection.Action)

def act (s : State) : Action → Option State
  | .handleRun => if s.posted then some { s with posted := false }.handleRun else none
  | .signalCompletes i result =>
    (completeAt signalFailed result s.signals i).map fun signals => { s with signals := signals }
  | .signalled i inl => (takeAt s.signals i).map fun x => { s with signals := x.2 }.handleSignal x.1 inl
  | .acceptCompletes i result =>
    (EchoServer.step s.server (.acceptCompletes i result)).map fun server => { s with server := server }
  | .accepted i inl =>
    (EchoConnection.result s.server.accepts i).bind fun result =>
      (EchoServer.step s.server (.accepted i inl)).map fun server =>
        { s.emit (.accepted result) with server := server, bombed := throws s.server server }
  | .connection i a => (EchoServer.step s.server (.connection i a)).map fun server => { s with server := server }

def step (s : State) (a : Action) : Option State := if s.bombed then none else act s a

def machine : Machine State Action := ⟨fun s => s = State.init,step⟩

/-! ## Serving until a signal comes -/

def Stopped (log : List Event) : Prop := ∃ sig, .signal (.ok sig) ∈ log

def goesOn : AcceptResult → Bool
  | .error e => e = .connectionAborted
  | .ok (.error _) => false
  | .ok (.ok _) => true

/-- The last accept was one of a socket whose endpoint cannot be told. -/
def Fatal (log : List Event) : Prop := ∃ before e, log = before ++ [.accepted (.ok (.error e))] ∧ ¬ Stopped before

def Barred (before : List EchoServer.Event) (e : EchoServer.Event) : Prop :=
  ∀ i, e = .started i → ∀ alive, .handledStop alive ∉ before

inductive Accepts (s : State) : Prop
  | waits (hlength : s.server.accepts.length = 1) (hlog : ∀ result, .accepted result ∈ s.log → goesOn result = true)
  | failed (e : Error) (hnone : s.server.accepts = []) (hlog : .accepted (.error e) ∈ s.log)
      (he : e ≠ .connectionAborted)

structure Serves (s : State) : Prop where
  fresh : s.posted = true → s = State.init
  running : s.posted = false → s.bombed = false → ¬ Stopped s.log → s.server.ec = none ∧ Accepts s
  stopped : Stopped s.log → s.server.ec.isSome = true ∧ .pending ∉ s.server.accepts
  mark : ∀ alive, .handledStop alive ∈ s.server.log → Stopped s.log
  fatal : s.bombed = true ↔ Fatal s.log
  barred : Chronicle Barred s.server.log

variable {s t : State}

theorem stopped_snoc {log : List Event} {e : Event} :
    Stopped (log ++ [e]) ↔ Stopped log ∨ ∃ sig, e = .signal (.ok sig) := by
  simp only [Stopped,List.mem_append,List.mem_singleton,exists_or,eq_comm (b := e)]

theorem fatal_snoc {log : List Event} {e : Event} :
    Fatal (log ++ [e]) ↔ (∃ error, e = .accepted (.ok (.error error))) ∧ ¬ Stopped log := by
  constructor
  · rintro ⟨before,error,hsplit,hnot⟩
    obtain ⟨rfl,hlast⟩ := List.append_inj' hsplit rfl
    exact ⟨⟨error,by simpa using hlast⟩,hnot⟩
  · rintro ⟨⟨error,rfl⟩,hnot⟩
    exact ⟨log,error,rfl,hnot⟩

theorem not_fatal_nil : ¬ Fatal [] := by
  rintro ⟨before,e,hsplit,-⟩
  simp at hsplit

theorem barred_of_ne {before : List EchoServer.Event} {e : EchoServer.Event} (h : ∀ i, e ≠ .started i) :
    Barred before e :=
  fun i he => absurd he (h i)

theorem serves_init : Serves State.init := by
  have hstopped : ¬ Stopped [] := by simp [Stopped]
  refine ⟨fun _ => rfl,nofun,fun h => absurd h hstopped,?_,?_,Chronicle.nil⟩
  · simp [State.init,EchoServer.State.init]
  · exact iff_of_false (by simp [State.init]) not_fatal_nil

theorem serves_handleRun : Serves { State.init with posted := false }.handleRun := by
  have hstopped : ¬ Stopped [.ran] := by simp [Stopped]
  refine ⟨nofun,fun _ _ _ => ⟨rfl,Accepts.waits rfl ?_⟩,fun h => absurd h hstopped,?_,?_,?_⟩
  · simp [State.handleRun,State.init,State.emit]
  · simp [State.handleRun,State.init,State.emit,EchoServer.State.submit,EchoServer.State.runTask,
      EchoServer.State.handleRun,EchoServer.State.initiateAccept,EchoServer.State.init,EchoServer.State.emit]
  · refine iff_of_false (by simp [State.handleRun,State.init,State.emit]) fun hfatal => ?_
    have hlast := (fatal_snoc.mp (show Fatal ([] ++ [.ran]) from hfatal)).1
    simp at hlast
  · exact Chronicle.nil.snoc (barred_of_ne (by simp))

theorem stopAll_accepts (server : EchoServer.State) (cache : List (ChatServer.Endpoint × ℕ)) (inl : Bool) :
    (server.stopAll cache inl).accepts = server.accepts := by
  induction cache generalizing server with
  | nil => rfl
  | cons x cache ih =>
    refine (ih (server.stopOne x.2 inl)).trans ?_
    unfold EchoServer.State.stopOne
    split <;> rfl

/-- `handle_stop` starts nothing, and no accept is left to succeed. -/
theorem handleStop_frame (server : EchoServer.State) (inl : Bool) :
    (server.handleStop inl).ec = some .operationAborted ∧ .pending ∉ (server.handleStop inl).accepts ∧
      ∃ k, (server.handleStop inl).log = server.log ++ k ∧ ∀ e ∈ k, ∀ i, e ≠ .started i := by
  have hstops := stopAll_accepts { server with
    ec := some .operationAborted, accepts := server.accepts.map Status.cancel } server.connections inl
  have hsame := EchoServer.stopAll_same { server with
    ec := some .operationAborted, accepts := server.accepts.map Status.cancel } server.connections inl
  obtain ⟨k,hlog,hk⟩ := EchoServer.stopAll_log { server with
    ec := some .operationAborted, accepts := server.accepts.map Status.cancel } server.connections inl
  have hhandled : server.handleStop inl = { EchoServer.State.stopAll { server with
      ec := some .operationAborted, accepts := server.accepts.map Status.cancel } server.connections inl with
        connections := [] }.emit (.handledStop (EchoServer.State.stopAll { server with
          ec := some .operationAborted, accepts := server.accepts.map Status.cancel }
            server.connections inl).living) := rfl
  rw [hhandled]
  generalize EchoServer.State.stopAll _ _ _ = u at hstops hsame hlog ⊢
  simp only [Prod.mk.injEq] at hsame
  refine ⟨hsame.1,?_,k ++ [.handledStop u.living],?_,fun e he i => ?_⟩
  · simp only [EchoServer.State.emit]
    rw [hstops]
    intro hmem
    obtain ⟨st,-,hst⟩ := List.mem_map.mp hmem
    cases st <;> simp [Status.cancel] at hst
  · simp only [EchoServer.State.emit]
    rw [hlog,List.append_assoc]
  · rcases List.mem_append.mp he with hold | hlast
    · obtain ⟨j,rfl⟩ := hk e hold
      simp
    · obtain rfl := List.mem_singleton.mp hlast
      simp

theorem serves_stop (h : Serves s) (hposted : s.posted = false) (hbombed : s.bombed = false)
    (signals : List (Status (Except Error ℕ))) (sig : ℕ) (inl : Bool) :
    Serves ({ s with signals := signals }.handleSignal (.ok sig) inl) := by
  have hstopped : Stopped (s.log ++ [.signal (.ok sig)]) := ⟨sig,by simp⟩
  obtain ⟨hec,hpending,k,hlog,hstarts⟩ := handleStop_frame s.server inl
  refine ⟨fun hp => (Bool.eq_false_iff.mp hposted hp).elim,fun _ _ hnot => absurd hstopped hnot,fun _ => ⟨?_,hpending⟩,
    fun _ _ => hstopped,?_,?_⟩
  · show (s.server.handleStop inl).ec.isSome = true
    rw [hec]
    rfl
  · refine iff_of_false (by simpa [State.handleSignal,State.emit] using hbombed) fun hfatal => ?_
    have hlast := (fatal_snoc.mp (show Fatal (s.log ++ [.signal (.ok sig)]) from hfatal)).1
    simp at hlast
  · show Chronicle Barred (s.server.handleStop inl).log
    rw [hlog]
    exact append_induction h.barred k fun l e he hl => hl.snoc (barred_of_ne (hstarts e he))

theorem throws_append {before after : EchoServer.State} {k : List EchoServer.Event} (h : after.log = before.log ++ k) :
    throws before after = k.any threw := by
  unfold throws
  rw [h,List.drop_left]

/-- Behind an accept the server runs, and has started a connection or has not. -/
theorem Serves.turned (h : Serves s) (hposted : s.posted = false) (hnot : ¬ Stopped s.log) {result : AcceptResult}
    {server : EchoServer.State} {k : List EchoServer.Event} (hserver : server.log = s.server.log ++ k)
    (hk : k = [] ∨ ∃ n, k = [.started n]) (hec : server.ec = none) (hok : ∀ e, result ≠ .ok (.error e))
    (haccepts : Accepts ⟨s.posted,s.signals,server,false,s.log ++ [.accepted result]⟩) :
    Serves { s.emit (.accepted result) with server := server, bombed := throws s.server server } := by
  have hsame : Stopped (s.log ++ [.accepted result]) ↔ Stopped s.log := by simp [stopped_snoc]
  have hthrows : throws s.server server = false := by
    rw [throws_append hserver]
    rcases hk with rfl | ⟨n,rfl⟩ <;> rfl
  rw [hthrows]
  refine ⟨fun hp => (Bool.eq_false_iff.mp hposted hp).elim,fun _ _ _ => ⟨hec,haccepts⟩,
    fun hs => absurd (hsame.mp hs) hnot,fun alive hmem => ?_,?_,?_⟩
  · rw [hserver] at hmem
    rcases hk with rfl | ⟨n,rfl⟩ <;> exact hsame.mpr (h.mark alive (by simpa using hmem))
  · refine iff_of_false (by simp) fun hfatal => ?_
    obtain ⟨⟨e,he⟩,-⟩ := fatal_snoc.mp hfatal
    exact hok e (by simpa using he)
  · show Chronicle Barred server.log
    rw [hserver]
    rcases hk with rfl | ⟨n,rfl⟩
    · simpa using h.barred
    · exact h.barred.snoc fun _ _ alive hmem => hnot (h.mark alive hmem)

/-- The endpoint of a client cannot be told, and nobody catches the exception. -/
theorem Serves.bombs (h : Serves s) (hposted : s.posted = false) (hnot : ¬ Stopped s.log) {e : Error}
    {server : EchoServer.State} (hserver : server.log = s.server.log ++ [.threw e]) :
    Serves { s.emit (.accepted (.ok (.error e))) with server := server, bombed := throws s.server server } := by
  have hsame : Stopped (s.log ++ [.accepted (.ok (.error e))]) ↔ Stopped s.log := by simp [stopped_snoc]
  have hthrows : throws s.server server = true := throws_append hserver
  rw [hthrows]
  refine ⟨fun hp => (Bool.eq_false_iff.mp hposted hp).elim,fun _ hb => absurd hb (by simp),
    fun hs => absurd (hsame.mp hs) hnot,fun alive hmem => ?_,?_,?_⟩
  · rw [hserver] at hmem
    exact hsame.mpr (h.mark alive (by simpa using hmem))
  · exact iff_of_true rfl (fatal_snoc.mpr ⟨⟨e,rfl⟩,hnot⟩)
  · show Chronicle Barred server.log
    rw [hserver]
    exact h.barred.snoc (barred_of_ne (by simp))

/-- An accept that a server handles which has been stopped. -/
theorem Serves.abandoned (h : Serves s) (hposted : s.posted = false) (hstopped : Stopped s.log) (result : AcceptResult)
    (i : ℕ) :
    Serves { s.emit (.accepted result) with
      server := { s.server with accepts := s.server.accepts.eraseIdx i }
      bombed := throws s.server { s.server with accepts := s.server.accepts.eraseIdx i } } := by
  obtain ⟨hec,hpending⟩ := h.stopped hstopped
  have hsame : Stopped (s.log ++ [.accepted result]) ↔ Stopped s.log := by simp [stopped_snoc]
  have hthrows : throws s.server { s.server with accepts := s.server.accepts.eraseIdx i } = false :=
    throws_append (k := []) (List.append_nil _).symm
  rw [hthrows]
  refine ⟨fun hp => (Bool.eq_false_iff.mp hposted hp).elim,fun _ _ hnot => absurd (hsame.mpr hstopped) hnot,
    fun _ => ⟨hec,fun hmem => hpending (List.mem_of_mem_eraseIdx hmem)⟩,fun _ _ => hsame.mpr hstopped,?_,h.barred⟩
  exact iff_of_false (by simp) fun hfatal => (fatal_snoc.mp hfatal).2 hstopped

theorem serves_accepted (h : Serves s) (hposted : s.posted = false) (hbombed : s.bombed = false) {i : ℕ}
    {result : AcceptResult} (hresult : EchoConnection.result s.server.accepts i = some result) (inl : Bool) :
    Serves { s.emit (.accepted result) with
      server := { s.server with accepts := s.server.accepts.eraseIdx i }.handleAccept result inl
      bombed :=
        throws s.server ({ s.server with accepts := s.server.accepts.eraseIdx i }.handleAccept result inl) } := by
  have hget := EchoConnection.result_eq_some hresult
  have hruns (hec : s.server.ec = none) : ¬ Stopped s.log ∧ s.server.accepts.eraseIdx i = [] ∧
      ∀ r, .accepted r ∈ s.log → goesOn r = true := by
    have hnot : ¬ Stopped s.log := fun hstopped => by simpa [hec] using (h.stopped hstopped).1
    refine ⟨hnot,?_⟩
    cases (h.running hposted hbombed hnot).2 with
    | failed e hnone => simp [hnone] at hget
    | waits hlength hlog =>
      have hlt := (List.getElem?_eq_some_iff.mp hget).1
      exact ⟨List.eq_nil_of_length_eq_zero (by rw [List.length_eraseIdx_of_lt hlt]; omega),hlog⟩
  have hgoes (hec : s.server.ec = none) (hresult : goesOn result = true) :
      ∀ r, .accepted r ∈ s.log ++ [.accepted result] → goesOn r = true := by
    intro r hmem
    rcases List.mem_append.mp hmem with hold | hnew
    · exact (hruns hec).2.2 r hold
    · obtain rfl : r = result := by simpa using hnew
      exact hresult
  have haccepted := EchoServer.handleAccept_cases { s.server with accepts := s.server.accepts.eraseIdx i } result inl
  generalize EchoServer.State.handleAccept _ _ _ = server at haccepted ⊢
  -- the next accept is started before the endpoint is asked for
  cases haccepted with
  | abandoned _ hec =>
    refine h.abandoned hposted ?_ result i
    by_contra hnot
    simp [(h.running hposted hbombed hnot).1] at hec
  | again hec =>
    obtain ⟨hnot,hnone,-⟩ := hruns hec
    refine h.turned hposted hnot (k := []) (List.append_nil _).symm (Or.inl rfl) hec (by simp) ?_
    exact Accepts.waits (by simp [EchoServer.State.initiateAccept,hnone]) (hgoes hec rfl)
  | failed e hec he =>
    obtain ⟨hnot,hnone,-⟩ := hruns hec
    refine h.turned hposted hnot (k := []) (List.append_nil _).symm (Or.inl rfl) hec (by simp) ?_
    exact Accepts.failed e hnone (by simp) he
  | threw e hec => exact h.bombs hposted (hruns hec).1 rfl
  | served ep hec =>
    obtain ⟨hnot,hnone,-⟩ := hruns hec
    refine h.turned hposted hnot (k := [.started s.server.conns.length]) rfl (Or.inr ⟨_,rfl⟩) hec (by simp) ?_
    refine Accepts.waits ?_ (hgoes hec rfl)
    simp [EchoServer.State.startConnection,EchoServer.State.initiateAccept,EchoServer.State.emit,hnone]

theorem posted_step {a : Action} (hstep : step State.init a = some t) :
    a = .handleRun ∧ t = { State.init with posted := false }.handleRun := by
  cases a with
  | handleRun => exact ⟨rfl,(Option.some.inj hstep).symm⟩
  | signalCompletes i result => simp [step,act,State.init,completeAt] at hstep
  | signalled i inl => simp [step,act,State.init,takeAt] at hstep
  | acceptCompletes i result => simp [step,act,State.init,EchoServer.State.init,EchoServer.step] at hstep
  | accepted i inl => simp [step,act,State.init,EchoServer.State.init,EchoConnection.result] at hstep
  | connection i a => simp [step,act,State.init,EchoServer.State.init,EchoServer.step] at hstep

theorem Serves.frame (h : Serves s) (hsame : (t.posted,t.bombed,t.log) = (s.posted,s.bombed,s.log))
    (hposted : s.posted = false) (hserver : (t.server.ec,t.server.log) = (s.server.ec,s.server.log))
    (hlength : t.server.accepts.length = s.server.accepts.length)
    (hpending : .pending ∈ t.server.accepts → .pending ∈ s.server.accepts) : Serves t := by
  simp only [Prod.mk.injEq] at hsame hserver
  obtain ⟨hp,hb,hlog⟩ := hsame
  obtain ⟨hec,hslog⟩ := hserver
  refine ⟨fun hpost => ?_,fun _ hbombed hnot => ?_,fun hs => ?_,fun alive hmem => ?_,?_,?_⟩
  · rw [hp,hposted] at hpost
    cases hpost
  · rw [hlog] at hnot
    obtain ⟨hnone,haccepts⟩ := h.running hposted (hb ▸ hbombed) hnot
    refine ⟨hec.trans hnone,?_⟩
    cases haccepts with
    | waits h₁ h₂ => exact Accepts.waits (hlength.trans h₁) (hlog ▸ h₂)
    | failed e h₁ h₂ h₃ =>
      rw [h₁] at hlength
      exact Accepts.failed e (List.eq_nil_of_length_eq_zero hlength) (hlog ▸ h₂) h₃
  · rw [hlog] at hs
    obtain ⟨hsome,hnone⟩ := h.stopped hs
    exact ⟨hec ▸ hsome,fun hmem => hnone (hpending hmem)⟩
  · rw [hslog] at hmem
    exact hlog ▸ h.mark alive hmem
  · rw [hb,hlog]
    exact h.fatal
  · rw [hslog]
    exact h.barred

theorem serves_failed (h : Serves s) (hposted : s.posted = false) (hbombed : s.bombed = false)
    (signals : List (Status (Except Error ℕ))) (e : Error) (inl : Bool) :
    Serves ({ s with signals := signals }.handleSignal (.error e) inl) := by
  have hsame : Stopped (s.log ++ [.signal (.error e)]) ↔ Stopped s.log := by simp [stopped_snoc]
  refine ⟨fun hp => (Bool.eq_false_iff.mp hposted hp).elim,fun _ _ hnot => ?_,fun hs => h.stopped (hsame.mp hs),
    fun alive hmem => hsame.mpr (h.mark alive hmem),?_,h.barred⟩
  · obtain ⟨hec,haccepts⟩ := h.running hposted hbombed fun hs => hnot (hsame.mpr hs)
    refine ⟨hec,?_⟩
    cases haccepts with
    | waits h₁ h₂ => exact Accepts.waits h₁ fun r hmem => h₂ r (by simpa [State.handleSignal,State.emit] using hmem)
    | failed error h₁ h₂ h₃ => exact Accepts.failed error h₁ (List.mem_append_left _ h₂) h₃
  · refine iff_of_false (by simpa [State.handleSignal,State.emit] using hbombed) fun hfatal => ?_
    have hlast := (fatal_snoc.mp (show Fatal (s.log ++ [.signal (.error e)]) from hfatal)).1
    simp at hlast

theorem serves_step {a : Action} (h : Serves s) (hstep : step s a = some t) : Serves t := by
  cases hposted : s.posted with
  | true =>
    obtain rfl := h.fresh hposted
    obtain ⟨-,rfl⟩ := posted_step hstep
    exact serves_handleRun
  | false =>
    obtain ⟨hnot,hact⟩ := Option.ite_none_left_eq_some.mp hstep
    have hbombed : s.bombed = false := Bool.eq_false_iff.mpr hnot
    cases a with
    | handleRun => simp [act,hposted] at hact
    | signalCompletes i result =>
      obtain ⟨signals,-,rfl⟩ := Option.map_eq_some_iff.mp hact
      exact h.frame rfl hposted rfl rfl id
    | signalled i inl =>
      obtain ⟨⟨result,signals⟩,-,rfl⟩ := Option.map_eq_some_iff.mp hact
      cases result with
      | ok sig => exact serves_stop h hposted hbombed signals sig inl
      | error e => exact serves_failed h hposted hbombed signals e inl
    | acceptCompletes i result =>
      obtain ⟨server,hserver,rfl⟩ := Option.map_eq_some_iff.mp hact
      obtain ⟨st,hst,rfl⟩ := Option.map_eq_some_iff.mp hserver
      obtain ⟨old,-,hcomplete⟩ := Option.bind_eq_some_iff.mp hst
      obtain ⟨rfl,-⟩ := Status.complete_cases hcomplete
      refine h.frame rfl hposted rfl List.length_set fun hmem => ?_
      rcases List.mem_or_eq_of_mem_set hmem with hold | hnew
      · exact hold
      · cases hnew
    | accepted i inl =>
      obtain ⟨result,hresult,hmap⟩ := Option.bind_eq_some_iff.mp hact
      obtain ⟨server,hserver,rfl⟩ := Option.map_eq_some_iff.mp hmap
      obtain ⟨result',hresult',rfl⟩ := Option.map_eq_some_iff.mp hserver
      obtain rfl : result = result' := Option.some.inj (hresult.symm.trans hresult')
      exact serves_accepted h hposted hbombed hresult inl
    | connection i b =>
      obtain ⟨server,hserver,rfl⟩ := Option.map_eq_some_iff.mp hact
      obtain ⟨-,hbind⟩ := Option.ite_none_left_eq_some.mp hserver
      obtain ⟨c,-,hmap⟩ := Option.bind_eq_some_iff.mp hbind
      obtain ⟨d,-,rfl⟩ := Option.map_eq_some_iff.mp hmap
      exact h.frame rfl hposted rfl rfl id

theorem serves_reachable (h : machine.Reachable s) : Serves s := by
  refine h.invariant (I := Serves) ?_ fun s a t hs ha => serves_step hs ha
  rintro s rfl
  exact serves_init

/-- The program accepts, one client after the other, until a signal comes, unless the acceptor fails or the endpoint
of a client cannot be told, which ends the program. Behind a signal no connection is started and no accept is
outstanding. -/
theorem serves_until_signalled (h : machine.Reachable s) :
    (s.posted = false → s.bombed = false → ¬ Stopped s.log → Accepts s) ∧
    (s.bombed = true ↔ Fatal s.log) ∧
    (Stopped s.log → .pending ∉ s.server.accepts) ∧
    (∀ before alive after, s.server.log = before ++ .handledStop alive :: after → ∀ i, .started i ∉ after) := by
  have hserves := serves_reachable h
  refine ⟨fun hp hb hnot => (hserves.running hp hb hnot).2,hserves.fatal,fun hs => (hserves.stopped hs).2,?_⟩
  intro before alive after hlog i hmem
  obtain ⟨mid,rest,rfl⟩ := List.append_of_mem hmem
  have hsplit : s.server.log = (before ++ .handledStop alive :: mid) ++ .started i :: rest := by simp [hlog]
  exact hserves.barred _ _ _ hsplit i rfl alive (by simp)

/-- A client is served, then a signal comes, while another client has been accepted. -/
def signalCrossesAccept : List Action :=
  [.handleRun,.acceptCompletes 0 (.ok (.ok (EchoServer.visitor 50000))),.accepted 0 true,
    .acceptCompletes 0 (.ok (.ok (EchoServer.visitor 50001))),.signalCompletes 0 (.ok 2),.signalled 0 true,
    .accepted 0 true]

theorem serves_until_signalled_signalCrossesAccept :
    ∃ s, machine.replay State.init signalCrossesAccept = some s ∧
      s.server.log = [.run,.started 0,.stopped 0,.handledStop [0]] ∧ .pending ∉ s.server.accepts := by
  have hrun : machine.replay State.init signalCrossesAccept = some _ := rfl
  obtain ⟨-,-,hpending,-⟩ := serves_until_signalled (Machine.Reachable.of_replay rfl hrun)
  exact ⟨_,hrun,rfl,hpending ⟨2,List.mem_of_getElem? (i := 2) rfl⟩⟩

end EchoApp
end BeastWebsocketEcho
