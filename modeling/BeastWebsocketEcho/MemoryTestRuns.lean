import BeastWebsocketEcho.Chronicle
import BeastWebsocketEcho.MemoryTest

/-!
# What the sessions of the memory test echo

A session has one operation in flight until it ends, and reads into an empty buffer, so that what it
writes is what it has read. The listener always waits for the next connection.
-/

namespace BeastWebsocketEcho
namespace MemoryTest

variable {B : Type*} {s t : Session B}

def Event.heard? : Event B → Option (Message B)
  | .read (some .closed) _ => none
  | .read _ message => some message
  | _ => none

def Event.written? : Event B → Option (Message B)
  | .asyncWrite message => some message
  | _ => none

/-- What was read, but for the end of the session. -/
def heard (log : List (Event B)) : List (Message B) := log.filterMap Event.heard?

def written (log : List (Event B)) : List (Message B) := log.filterMap Event.written?

/-- The events behind which a session has nothing to do. -/
def Event.ends : Event B → Bool
  | .failed what _ => what != "read"
  | .read (some .closed) _ => true
  | _ => false

def Ended (log : List (Event B)) : Prop := ∃ e ∈ log.getLast?, e.ends = true

structure Sound (s : Session B) : Prop where
  one : s.outstanding ≤ 1
  fresh : 0 < s.accepts + s.reads → s.buffer = []
  echoed : written s.log = heard s.log
  ended : s.outstanding = 0 ↔ Ended s.log

theorem ended_snoc (log : List (Event B)) (e : Event B) : Ended (log ++ [e]) ↔ e.ends = true := by
  simp [Ended]

theorem sound_run : Sound (Session.init.run : Session B) := by
  refine ⟨le_refl _,fun _ => rfl,rfl,?_⟩
  exact iff_of_false Nat.one_ne_zero (by simp [Ended,Session.run,Session.init,Session.emit,Event.ends])

/-- The handler of the only operation starts the next one, or the session ends. -/
theorem Sound.of_last {k : List (Event B)} {e : Event B} (h : Sound s) (hlog : t.log = s.log ++ k ++ [e])
    (hone : t.outstanding = if e.ends then 0 else 1) (hfresh : 0 < t.accepts + t.reads → t.buffer = [])
    (hechoed : written (k ++ [e]) = heard (k ++ [e])) : Sound t := by
  refine ⟨?_,hfresh,?_,?_⟩
  · rw [hone]
    split <;> simp
  · have hbefore := h.echoed
    simp only [written,heard] at hechoed hbefore ⊢
    rw [hlog,List.append_assoc,List.filterMap_append (l := s.log),List.filterMap_append (l := s.log),hbefore,hechoed]
  · rw [hlog,ended_snoc,hone]
    cases e.ends <;> simp

theorem onRead_failed (s : Session B) {e : Error} (he : e ≠ .closed) :
    s.onRead (some e) = (s.emit (.failed "read" e)).echo := by
  cases e with
  | closed => exact absurd rfl he
  | _ => rfl

theorem sound_sessionStep (h : Sound s) {a : SessionAction B} (ha : sessionStep s a = some t) : Sound t := by
  have hone := h.one
  have hfresh := h.fresh
  simp only [Session.outstanding] at hone
  cases a with
  | accepted ec =>
    obtain ⟨hgo,hok⟩ := Option.ite_none_right_eq_some.mp ha
    obtain rfl := Option.some.inj hok
    have hbuffer := hfresh (by omega)
    have hreads : s.reads = 0 := by omega
    have hwrites : s.writes.length = 0 := by omega
    cases ec with
    | some e =>
      refine h.of_last (k := [.accepted (some e)]) (e := .failed "accept" e) ?_ ?_ ?_ rfl
      · simp [Session.onAccept,Session.emit]
      · simp [Session.onAccept,Session.emit,Session.outstanding,Event.ends,hreads,hwrites]
        omega
      · exact fun _ => hbuffer
    | none =>
      refine h.of_last (k := [.accepted none]) (e := .asyncRead) ?_ ?_ ?_ rfl
      · simp [Session.onAccept,Session.doRead,Session.emit]
      · simp [Session.onAccept,Session.doRead,Session.emit,Session.outstanding,Event.ends,hreads,hwrites]
        omega
      · exact fun _ => hbuffer
  | read ec bytes text =>
    obtain ⟨hgo,hok⟩ := Option.ite_none_right_eq_some.mp ha
    obtain rfl := Option.some.inj hok
    have hbuffer := hfresh (by omega)
    have haccepts : s.accepts = 0 := by omega
    have hreads : s.reads = 1 := by omega
    have hwrites : s.writes = [] := List.length_eq_zero_iff.mp (by omega)
    have hecho : ∀ (u : Session B) (k : List (Event B)), written k = [] → heard k = [⟨text,bytes⟩] →
        u.log = s.log ++ k ++ [Event.asyncWrite ⟨text,s.buffer ++ bytes⟩] → u.outstanding = 1 →
          u.accepts + u.reads = 0 → Sound u := by
      intro u k hwritten hheard hlog hthis hfree
      refine h.of_last hlog hthis (fun hpos => by omega) ?_
      simp only [written,heard] at hwritten hheard ⊢
      rw [List.filterMap_append,List.filterMap_append,hwritten,hheard,hbuffer]
      rfl
    cases ec with
    | none =>
      refine hecho _ [.read none ⟨text,bytes⟩] rfl rfl ?_ ?_ ?_
      · simp [Session.onRead,Session.echo,Session.emit]
      · simp [Session.onRead,Session.echo,Session.emit,Session.outstanding,haccepts,hreads,hwrites]
      · simp [Session.onRead,Session.echo,Session.emit,haccepts,hreads]
    | some e =>
      by_cases hclosed : e = .closed
      · subst hclosed
        refine h.of_last (k := []) (e := .read (some .closed) ⟨text,bytes⟩) ?_ ?_ ?_ rfl
        · simp [Session.onRead,Session.emit]
        · simp [Session.onRead,Session.emit,Session.outstanding,Event.ends,haccepts,hreads,hwrites]
        · simp [Session.onRead,Session.emit,haccepts,hreads]
      · have hheard : heard [.read (some e) ⟨text,bytes⟩,.failed "read" e] = [⟨text,bytes⟩] := by
          cases e with
          | closed => exact absurd rfl hclosed
          | _ => rfl
        rw [onRead_failed _ hclosed]
        refine hecho _ [.read (some e) ⟨text,bytes⟩,.failed "read" e] rfl hheard ?_ ?_ ?_
        · simp [Session.echo,Session.emit]
        · simp [Session.echo,Session.emit,Session.outstanding,haccepts,hreads,hwrites]
        · simp [Session.echo,Session.emit,haccepts,hreads]
  | wrote ec =>
    cases hw : s.writes with
    | nil => simp [sessionStep,hw] at ha
    | cons message writes =>
      rw [hw] at hone
      simp only [List.length_cons] at hone
      have haccepts : s.accepts = 0 := by omega
      have hreads : s.reads = 0 := by omega
      have hnil : writes = [] := List.length_eq_zero_iff.mp (by omega)
      simp only [sessionStep,hw,Option.some.injEq] at ha
      subst ha hnil
      cases ec with
      | some e =>
        refine h.of_last (k := [.wrote (some e)]) (e := .failed "write" e) ?_ ?_ ?_ rfl
        · simp [Session.onWrite,Session.emit]
        · simp [Session.onWrite,Session.emit,Session.outstanding,Event.ends,haccepts,hreads]
        · simp [Session.onWrite,Session.emit,haccepts,hreads]
      | none =>
        refine h.of_last (k := [.wrote none]) (e := .asyncRead) ?_ ?_ ?_ rfl
        · simp [Session.onWrite,Session.doRead,Session.emit]
        · simp [Session.onWrite,Session.doRead,Session.emit,Session.outstanding,Event.ends,haccepts,hreads]
        · exact fun _ => rfl

/-! ## The server -/

/-- The listener waits for a connection, and every connection that it accepted has its session. -/
structure Serving (s : State B) : Prop where
  waits : s.accepts = 1
  sessions : s.sessions.length = s.log.count .accepted
  deaf : s.listening = false → s.sessions = []
  sound : ∀ c ∈ s.sessions, Sound c

theorem serving_run (result : String → ErrorCode) : Serving (State.construct result : State B).run := by
  unfold State.construct
  split
  · exact ⟨rfl,rfl,fun _ => rfl,by simp [State.run,State.doAccept]⟩
  · exact ⟨rfl,rfl,fun _ => rfl,by simp [State.run,State.doAccept]⟩

theorem serving_step {s t : State B} (h : Serving s) {a : Action B} (ha : step s a = some t) : Serving t := by
  have hwaits := h.waits
  cases a with
  | accepted ec =>
    obtain ⟨⟨-,hlistens⟩,hok⟩ := Option.ite_none_right_eq_some.mp ha
    obtain rfl := Option.some.inj hok
    cases ec with
    | some e =>
      refine ⟨?_,?_,h.deaf,h.sound⟩
      · simp [State.onAccept,State.doAccept,hwaits]
      · simpa [State.onAccept,State.doAccept] using h.sessions
    | none =>
      refine ⟨?_,?_,fun hdeaf => ?_,?_⟩
      · simp [State.onAccept,State.doAccept,hwaits]
      · simp [State.onAccept,State.doAccept,h.sessions]
      · have hdeaf' : s.listening = false := hdeaf
        simp [hlistens rfl] at hdeaf'
      · intro c hc
        rcases List.mem_append.mp hc with hc | hc
        · exact h.sound c hc
        · obtain rfl := List.mem_singleton.mp hc
          exact sound_run
  | session i a =>
    obtain ⟨c,hc,hrest⟩ := Option.bind_eq_some_iff.mp ha
    obtain ⟨d,hd,rfl⟩ := Option.map_eq_some_iff.mp hrest
    have hmem := List.mem_of_getElem? hc
    refine ⟨hwaits,?_,fun hdeaf => ?_,?_⟩
    · simpa using h.sessions
    · simp [h.deaf hdeaf] at hmem
    · intro e he
      rcases List.mem_or_eq_of_mem_set he with he | rfl
      · exact h.sound e he
      · exact sound_sessionStep (h.sound c hmem) hd

/-- Whatever fails, the listener goes on and gives every connection one session; and each session has one operation in
flight until it ends, and has written what it has read, in order. -/
theorem serves_and_echoes {s : State B} (h : (machine B).Reachable s) :
    s.accepts = 1 ∧ s.sessions.length = s.log.count .accepted ∧ (s.listening = false → s.sessions = []) ∧
      ∀ c ∈ s.sessions, c.outstanding ≤ 1 ∧ written c.log = heard c.log ∧ (c.outstanding = 0 ↔ Ended c.log) := by
  have hserving : Serving s := by
    refine h.invariant (I := Serving) ?_ fun s a t hs ha => serving_step hs ha
    rintro s ⟨result,rfl⟩
    exact serving_run result
  refine ⟨hserving.waits,hserving.sessions,hserving.deaf,fun c hc => ?_⟩
  have hsound := hserving.sound c hc
  exact ⟨hsound.one,hsound.echoed,hsound.ended⟩

/-- Two clients, of which the first one is echoed what a read that failed has left, and closes. -/
def twoClients : List (Action ℕ) :=
  [.accepted none,.accepted (some .connectionAborted),.session 0 (.accepted none),.accepted none,
    .session 1 (.accepted none),.session 0 (.read (some (.other 1)) [7] true),.session 1 (.read none [8,9] false),
    .session 0 (.wrote none),.session 0 (.read (some .closed) [] true)]

theorem serves_and_echoes_twoClients : ∃ s, (machine ℕ).replay (State.construct fun _ => none).run twoClients = some s ∧
    s.sessions.map (fun c => heard c.log) = [[⟨true,[7]⟩],[⟨false,[8,9]⟩]] ∧
      ∀ c ∈ s.sessions, written c.log = heard c.log := by
  have hrun : (machine ℕ).replay (State.construct fun _ => none).run twoClients = some _ := rfl
  have hreach : (machine ℕ).Reachable _ := Machine.Reachable.of_replay ⟨_,rfl⟩ hrun
  exact ⟨_,hrun,by decide,fun c hc => ((serves_and_echoes hreach).2.2.2 c hc).2.1⟩

end MemoryTest
end BeastWebsocketEcho
