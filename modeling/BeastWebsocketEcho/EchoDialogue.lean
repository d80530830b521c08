import BeastWebsocketEcho.ChatterboxConnectionRelay
import BeastWebsocketEcho.EchoConnectionAccount
import BeastWebsocketEcho.EchoServerRuns
import BeastWebsocketEcho.Ledger

/-!
# A chatterbox client and the echo server

The client connects to the port on which the server listens, and both echo what they hear. A message is on
the wire from the moment its write has succeeded until the read of the other side completes with it; the
wires are first-in first-out. The rest of the two connections, their failures and their stops, goes its own way.
-/

namespace BeastWebsocketEcho
namespace EchoDialogue

open ChatServer (Endpoint greetings)

/-- The wires: `down` from the server to the client, `up` back. -/
structure State where
  server : EchoConnection.State
  client : ChatterboxConnection.State Char
  down : Ledger (List Char) Unit
  up : Ledger (List Char) Unit

inductive Action
  | server (a : EchoConnection.Action)
  | client (a : ChatterboxConnection.Action Char)
  | serverSends (i : ℕ)
  | serverHears (i : ℕ)
  | clientSends (i : ℕ)
  | clientHears (i : ℕ)

def heard (wire : Ledger (List Char) Unit) : List (List Char) := wire.left.map Prod.fst

def step (s : State) : Action → Option State
  | .server a => if a.inside then (EchoConnection.step s.server a).map fun c => { s with server := c } else none
  | .client a => if a.inside then (ChatterboxConnection.step s.client a).map fun c => { s with client := c } else none
  | .serverSends i =>
    ((s.server.writes[i]?).bind Prod.fst).bind fun message =>
      (EchoConnection.step s.server (.writeCompletes i none)).map fun c =>
        { s with server := c, down := s.down.enter message.toList }
  | .serverHears i =>
    (s.up.next ()).bind fun x =>
      (EchoConnection.step s.server (.readCompletes i (.ok x.1))).map fun c => { s with server := c, up := x.2 }
  | .clientSends i =>
    s.client.txQueue.head?.bind fun message =>
      (ChatterboxConnection.step s.client (.writeCompletes i none)).map fun c =>
        { s with client := c, up := s.up.enter message }
  | .clientHears i =>
    (s.down.next ()).bind fun x =>
      (ChatterboxConnection.step s.client (.readCompletes i (.ok x.1))).map fun c => { s with client := c, down := x.2 }

/-- A connection that the server has accepted, and one that the pool has made. -/
def begun (visitors : ℕ) (ep : Endpoint) (inl inl' : Bool) : State :=
  ⟨EchoServer.welcome visitors ep inl,ChatterboxConnection.State.init.dispatch .handleRun inl',
    Ledger.empty,Ledger.empty⟩

def machine (visitors : ℕ) (ep : Endpoint) : Machine State Action where
  start s := ∃ inl inl', s = begun visitors ep inl inl'
  step := step

namespace State

def circulating (s : State) : Multiset (List Char) :=
  s.server.held + (s.up.waiting + (s.client.flow + s.down.waiting : Multiset (List Char)))

def injected (s : State) (visitors : ℕ) (ep : Endpoint) : Multiset (List Char) :=
  ((greetings visitors ep).map String.toList : List (List Char)) + EchoConnection.countdown s.server.timeRemaining

end State

/-! ## What links the two sides -/

structure Linked (visitors : ℕ) (ep : Endpoint) (s : State) : Prop where
  reachable : EchoConnection.machine.Reachable s.server
  timing : EchoConnection.Timing s.server
  relay : ChatterboxConnection.Relay s.client
  /-- The client has sent what it heard, but for what it holds. -/
  passed : heard s.down = s.up.entered ++ s.client.flow
  /-- The server has said what it heard and what it injects, but for what it holds. -/
  account : (s.down.entered : Multiset (List Char)) + s.server.held =
    (heard s.up : Multiset (List Char)) + s.injected visitors ep

variable {visitors : ℕ} {ep : Endpoint} {s t : State}

/-- The greetings that a connection begins with are what it holds. -/
theorem begins (messages : List String) (inl : Bool) {c : EchoConnection.State}
    (hc : EchoConnection.machine.Reachable c) (htiming : EchoConnection.Timing c) :
    EchoConnection.Timing (messages.foldl (fun c msg => c.dispatchSend msg inl) c) ∧
      (messages.foldl (fun c msg => c.dispatchSend msg inl) c).held =
        (messages.map String.toList : List (List Char)) + c.held ∧
      (messages.foldl (fun c msg => c.dispatchSend msg inl) c).timeRemaining = c.timeRemaining := by
  induction messages generalizing c with
  | nil => exact ⟨htiming,(Multiset.zero_add _).symm,rfl⟩
  | cons msg messages ih =>
    have hplain := EchoConnection.plainly_dispatchSend c msg inl
    obtain ⟨htiming',hheld,htime⟩ := ih (EchoConnection.reachable_dispatchSend hc msg inl) (hplain.timing htiming)
    refine ⟨htiming',hheld.trans ?_,htime.trans hplain.time⟩
    rw [EchoConnection.held_dispatchSend (EchoConnection.front_of_reachable hc),List.map_cons,← Multiset.cons_coe,
      Multiset.cons_add,Multiset.add_cons]

theorem linked_begun (visitors : ℕ) (ep : Endpoint) (inl inl' : Bool) :
    Linked visitors ep (begun visitors ep inl inl') := by
  have hrun : EchoConnection.Timing (EchoConnection.State.constructed.run inl) ∧
      (EchoConnection.State.constructed.run inl).held = 0 ∧
        EchoConnection.countdown (EchoConnection.State.constructed.run inl).timeRemaining = 0 := by
    cases inl with
    | true => exact ⟨⟨rfl,Or.inr ⟨by decide,by decide⟩⟩,rfl,rfl⟩
    | false => exact ⟨⟨rfl,Or.inl ⟨rfl,rfl,by decide⟩⟩,rfl,rfl⟩
  obtain ⟨htiming,hheld,hcount⟩ := hrun
  obtain ⟨htiming',hheld',htime⟩ := begins (greetings visitors ep) inl (EchoConnection.reachable_run inl) htiming
  refine ⟨EchoServer.welcome_reachable visitors ep inl,htiming',ChatterboxConnection.Relay.init inl',?_,?_⟩
  · cases inl' <;> rfl
  · change (0 : Multiset (List Char)) + (EchoServer.welcome visitors ep inl).held = 0 +
      State.injected (begun visitors ep inl inl') visitors ep
    rw [Multiset.zero_add,Multiset.zero_add]
    refine hheld'.trans ?_
    rw [hheld,State.injected]
    change _ + (0 : Multiset (List Char)) = _ +
        EchoConnection.countdown (EchoServer.welcome visitors ep inl).timeRemaining
    rw [show (EchoServer.welcome visitors ep inl).timeRemaining = _ from htime,hcount]

/-! ## One step -/

theorem linked_server (h : Linked visitors ep s) {a : EchoConnection.Action} (ha : step s (.server a) = some t) :
    Linked visitors ep t := by
  obtain ⟨hin,hstep⟩ := Option.ite_none_right_eq_some.mp ha
  obtain ⟨c,hc,rfl⟩ := Option.map_eq_some_iff.mp hstep
  obtain ⟨htiming,hbalanced⟩ := EchoConnection.stays (EchoConnection.front_of_reachable h.reachable) h.timing hin hc
  refine ⟨h.reachable.step hc,htiming,h.relay,h.passed,?_⟩
  have haccount := h.account
  simp only [EchoConnection.Balanced] at hbalanced
  simp only [State.injected] at haccount ⊢
  apply add_right_cancel (b := EchoConnection.countdown s.server.timeRemaining)
  calc (s.down.entered : Multiset (List Char)) + c.held + EchoConnection.countdown s.server.timeRemaining
      = s.down.entered + s.server.held + EchoConnection.countdown c.timeRemaining := by
        rw [add_assoc,hbalanced,add_assoc]
    _ = heard s.up + (((greetings visitors ep).map String.toList : List (List Char)) +
          EchoConnection.countdown s.server.timeRemaining) + EchoConnection.countdown c.timeRemaining := by
        rw [haccount]
    _ = heard s.up + (((greetings visitors ep).map String.toList : List (List Char)) +
          EchoConnection.countdown c.timeRemaining) + EchoConnection.countdown s.server.timeRemaining := by abel

theorem linked_client (h : Linked visitors ep s) {a : ChatterboxConnection.Action Char}
    (ha : step s (.client a) = some t) :
    Linked visitors ep t := by
  obtain ⟨hin,hstep⟩ := Option.ite_none_right_eq_some.mp ha
  obtain ⟨c,hc,rfl⟩ := Option.map_eq_some_iff.mp hstep
  obtain ⟨hrelay,hflow⟩ := h.relay.stays hin hc
  exact ⟨h.reachable,h.timing,hrelay,by simpa only [hflow] using h.passed,h.account⟩

theorem linked_serverSends (h : Linked visitors ep s) {i : ℕ} (ha : step s (.serverSends i) = some t) :
    Linked visitors ep t := by
  obtain ⟨message,hmessage,hrest⟩ := Option.bind_eq_some_iff.mp ha
  obtain ⟨c,hc,rfl⟩ := Option.map_eq_some_iff.mp hrest
  obtain ⟨message',hmessage',htiming,hheld,htime⟩ :=
    EchoConnection.sends (EchoConnection.front_of_reachable h.reachable) h.timing hc
  obtain rfl : message' = message := Option.some.inj (hmessage'.symm.trans hmessage)
  refine ⟨h.reachable.step (a := .writeCompletes i none) hc,htiming,h.relay,h.passed,?_⟩
  have haccount := h.account
  rw [hheld] at haccount
  simp only [State.injected,htime,Ledger.enter,← Multiset.coe_add] at haccount ⊢
  rw [← haccount,Multiset.add_cons,add_assoc,Multiset.coe_singleton,Multiset.singleton_add,Multiset.add_cons]

theorem linked_serverHears (h : Linked visitors ep s) {i : ℕ} (ha : step s (.serverHears i) = some t) :
    Linked visitors ep t := by
  obtain ⟨⟨message,up⟩,hnext,hrest⟩ := Option.bind_eq_some_iff.mp ha
  obtain ⟨c,hc,rfl⟩ := Option.map_eq_some_iff.mp hrest
  obtain ⟨htiming,hheld,htime⟩ := EchoConnection.hears h.timing hc
  obtain ⟨hentered,hleft,-⟩ := Ledger.next_cases hnext
  refine ⟨h.reachable.step (a := .readCompletes i (.ok message)) hc,htiming,h.relay,?_,?_⟩
  · rw [show (State.mk c s.client s.down up).up.entered = s.up.entered from hentered]
    exact h.passed
  · have haccount := h.account
    simp only [State.injected,hheld,htime,heard,hleft,List.map_append,← Multiset.coe_add] at haccount ⊢
    rw [Multiset.add_cons,haccount,List.map_singleton,Multiset.coe_singleton,add_assoc,Multiset.singleton_add,
      Multiset.add_cons]

theorem linked_clientSends (h : Linked visitors ep s) {i : ℕ} (ha : step s (.clientSends i) = some t) :
    Linked visitors ep t := by
  obtain ⟨message,hmessage,hrest⟩ := Option.bind_eq_some_iff.mp ha
  obtain ⟨c,hc,rfl⟩ := Option.map_eq_some_iff.mp hrest
  obtain ⟨message',hmessage',hrelay,hflow⟩ := h.relay.sends hc
  obtain rfl : message' = message := Option.some.inj (hmessage'.symm.trans hmessage)
  refine ⟨h.reachable,h.timing,hrelay,?_,h.account⟩
  simpa only [hflow,Ledger.enter,List.append_assoc,List.singleton_append] using h.passed

theorem linked_clientHears (h : Linked visitors ep s) {i : ℕ} (ha : step s (.clientHears i) = some t) :
    Linked visitors ep t := by
  obtain ⟨⟨message,down⟩,hnext,hrest⟩ := Option.bind_eq_some_iff.mp ha
  obtain ⟨c,hc,rfl⟩ := Option.map_eq_some_iff.mp hrest
  obtain ⟨hrelay,hflow⟩ := h.relay.hears hc
  obtain ⟨hentered,hleft,-⟩ := Ledger.next_cases hnext
  have hpassed := h.passed
  have haccount := h.account
  refine ⟨h.reachable,h.timing,hrelay,?_,?_⟩
  · simp only [heard,hleft,hflow,List.map_append,List.map_singleton] at hpassed ⊢
    rw [hpassed,List.append_assoc]
  · simpa only [State.injected,hentered] using haccount

theorem linked_of_reachable (h : (machine visitors ep).Reachable s) : Linked visitors ep s := by
  refine h.invariant (I := Linked visitors ep) ?_ ?_
  · rintro s ⟨inl,inl',rfl⟩
    exact linked_begun visitors ep inl inl'
  · intro s a t hs ha
    cases a with
    | server a => exact linked_server hs ha
    | client a => exact linked_client hs ha
    | serverSends i => exact linked_serverSends hs ha
    | serverHears i => exact linked_serverHears hs ha
    | clientSends i => exact linked_clientSends hs ha
    | clientHears i => exact linked_clientHears hs ha

/-- What the server has said went all the way round, up to what is on its way. -/
theorem said_eq (h : Linked visitors ep s) :
    s.down.entered = heard s.up ++ (s.up.waiting ++ (s.client.flow ++ s.down.waiting)) := by
  rw [s.down.balance,show s.down.left.map Prod.fst = _ from h.passed,s.up.balance]
  simp [heard]

/-- No message is lost, made up or said twice: what is between the two sides is what the server has injected. -/
theorem circulates (h : (machine visitors ep).Reachable s) : s.circulating = s.injected visitors ep ∧
    s.server.unsent.length + s.client.unsent.length ≤ 9 := by
  have hlinked := linked_of_reachable h
  have hsaid := congrArg (fun l : List (List Char) => (l : Multiset (List Char))) (said_eq hlinked)
  simp only [← Multiset.coe_add] at hsaid
  have haccount := hlinked.account
  rw [hsaid,add_assoc] at haccount
  have hcirculating : s.circulating = s.injected visitors ep := by
    rw [← Multiset.add_right_inj.mp haccount,State.circulating]
    exact add_comm _ _
  refine ⟨hcirculating,?_⟩
  have hcard := congrArg Multiset.card hcirculating
  have hlines := EchoConnection.card_countdown_le s.server.timeRemaining
  simp only [State.circulating,State.injected,EchoConnection.State.held,ChatterboxConnection.State.flow,greetings,
    Multiset.card_add,Multiset.coe_card,List.length_map,List.length_append,List.length_cons,List.length_nil] at hcard
  omega

def roundTrip : List Action :=
  [.server (.acceptCompletes 0 none),.server (.accepted 0),.client (.connectCompletes 0 none),.client (.connected 0),
    .client (.handshakeCompletes 0 none),.client (.handshook 0),.serverSends 0,.clientHears 0,.client (.read 0 true),
    .clientSends 0,.serverHears 0]

def visitor : Endpoint := ⟨"127.0.0.1",49152⟩

theorem circulates_roundTrip : ∃ s, (machine 1 visitor).replay (begun 1 visitor true true) roundTrip = some s ∧
    s.server.txQueue.length = 4 ∧ s.circulating = s.injected 1 visitor := by
  have hrun : (machine 1 visitor).replay (begun 1 visitor true true) roundTrip = some _ := rfl
  exact ⟨_,hrun,rfl,(circulates (Machine.Reachable.of_replay ⟨true,true,rfl⟩ hrun)).1⟩

/-- Each side says what it has heard, in order: the client nothing else, sent or still queued, so that the server hears
what it has said. -/
theorem echoes_in_order (h : (machine visitors ep).Reachable s) :
    s.up.entered ++ s.client.unsent <+: heard s.down ∧ heard s.up <+: s.down.entered := by
  have hlinked := linked_of_reachable h
  constructor
  · rw [hlinked.passed,ChatterboxConnection.State.flow,← List.append_assoc]
    exact List.prefix_append _ _
  · rw [said_eq hlinked]
    exact List.prefix_append _ _

/-- A second greeting has been heard, and waits in the queue of the client. -/
def secondHeard : List Action :=
  roundTrip ++ [.server (.written 0),.serverSends 0,.clientHears 0,.client (.read 0 true)]

theorem echoes_in_order_secondHeard : ∃ s, (machine 1 visitor).replay (begun 1 visitor true true) secondHeard = some s ∧
    s.up.entered.length = 1 ∧ s.client.unsent.length = 1 ∧ (heard s.up).length = 1 ∧
      s.up.entered ++ s.client.unsent <+: heard s.down ∧ heard s.up <+: s.down.entered := by
  have hrun : (machine 1 visitor).replay (begun 1 visitor true true) secondHeard = some _ := rfl
  exact ⟨_,hrun,rfl,rfl,rfl,echoes_in_order (Machine.Reachable.of_replay ⟨true,true,rfl⟩ hrun)⟩

end EchoDialogue
end BeastWebsocketEcho
