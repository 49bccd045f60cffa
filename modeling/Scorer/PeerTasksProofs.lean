import Scorer.AllowedTraceProofs
import Scorer.DnsBootstrapProofs
import Scorer.LabelledRunProofs

/-! # The tasks that connect to peers

    Four kinds of tasks make connections: the one that reconnects to channel peers, the
    DNS bootstrapper, one for each `ConnectionNeeded` event, and the listener.  They read
    the peers, the graph and the stop flag at moments of their own, and a shutdown only
    sets the flag.

    * `step` is one move of one task, or a change around them;
    * `connections_accounted`: in every run each connection has its reason: who was found
      unconnected, which address was announced, resolved or sampled, and when the flag was
      last read;
    * `winds_down`: what can still be connected once the flag is set. -/

namespace PeerTasks

open AllowedTrace DnsBootstrap LabelledRun NodeHostname

/-! ## The tasks -/

/-- A resolved address. -/
abbrev SocketAddr (IpAddr : Type) := IpAddr × UInt16

/-- `SocketAddress`, where an onion address keeps its bytes. -/
inductive SocketAddress (IpAddr : Type) where
  | tcpIp (addr : IpAddr) (port : UInt16)
  | onionV2 (bytes : List UInt8)
  | onionV3 (bytes : List UInt8)
  | hostname (hostname : String) (port : UInt16)
  deriving DecidableEq

variable {P NodeId IpAddr : Type}

/-- What the calls of a task answer at one moment. -/
structure Now (P IpAddr : Type) where
  channels : List P
  node     : P → Option (Option (List (SocketAddress IpAddr)))
  resolve  : SocketAddress IpAddr → Option (List (SocketAddr IpAddr))
  round    : Round IpAddr
  connects : Bool

/-- Which task dials. -/
inductive Dialer where
  | reconnect
  | bootstrap
  | needed (i : Nat)
  deriving DecidableEq, Repr

/-- What a task read or did. -/
inductive Event (P IpAddr : Type) where
  | peers (connected : List P)
  | listed (channels : List P)
  | unconnected (task : Dialer) (node : P)
  | turn (node : P)
  | announced (node : P) (info : Option (Option (List (SocketAddress IpAddr))))
  | resolved (task : Dialer) (addr : SocketAddress IpAddr)
      (found : Option (List (SocketAddr IpAddr)))
  | round
  | ignoring (connected : List P)
  | sampled (peers : List (BootstrappedPeer P IpAddr))
  | wanted (i : Nat) (node : P) (addresses : List (SocketAddress IpAddr))
  | dial (task : Dialer) (node : P) (addr : SocketAddr IpAddr)
  | admitted
  | inbound
  | stop
  deriving DecidableEq

/-- The filter on the addresses that a node announces. -/
def nonOnion : SocketAddress IpAddr → Option (SocketAddress IpAddr)
  | .onionV2 _ => none
  | .onionV3 _ => none
  | addr => some addr

/-- The addresses to try, from what the graph has of the node. -/
def announcedAddrs : Option (Option (List (SocketAddress IpAddr))) →
    List (SocketAddress IpAddr)
  | some (some addresses) => addresses.filterMap nonOnion
  | _ => []

/-- Where the task that reconnects is in its loops. -/
inductive Reconnect (P IpAddr : Type) where
  | ticking
  | nodes (rest : List P)
  | unconnected (node : P) (rest : List P)
  | cleared (node : P) (rest : List P)
  | dialing (node : P) (sockaddrs : List (SocketAddr IpAddr))
      (addrs : List (SocketAddress IpAddr)) (rest : List P)
  | connecting (node : P) (sockaddrs : List (SocketAddr IpAddr))
      (addrs : List (SocketAddress IpAddr)) (rest : List P)
  | returned

/-- A move of the task; the filter on the nodes is lazy. -/
def reconnectStep [DecidableEq P] (now : Now P IpAddr) (stop : Bool) (connected : List P) :
    Reconnect P IpAddr → Reconnect P IpAddr × List (Event P IpAddr)
  | .ticking => (.nodes now.channels, [.listed now.channels])
  | .nodes [] => (.ticking, [])
  | .nodes (node :: rest) =>
      if node ∈ connected then (.nodes rest, [])
      else (.unconnected node rest, [.unconnected .reconnect node])
  | .unconnected node rest =>
      if stop then (.returned, []) else (.cleared node rest, [.turn node])
  | .cleared node rest =>
      (.dialing node [] (announcedAddrs (now.node node)) rest,
        [.announced node (now.node node)])
  | .dialing node (addr :: sockaddrs) addrs rest =>
      (.connecting node sockaddrs addrs rest, [.dial .reconnect node addr])
  | .dialing node [] (addr :: addrs) rest =>
      (.dialing node ((now.resolve addr).getD []) addrs rest,
        [.resolved .reconnect addr (now.resolve addr)])
  | .dialing _ [] [] rest => (.nodes rest, [])
  -- whether the node is connected makes no difference here
  | .connecting node sockaddrs addrs rest => (.dialing node sockaddrs addrs rest, [])
  | .returned => (.returned, [])

/-- Where the bootstrap task is. -/
inductive Bootstrap (P NodeId IpAddr : Type) where
  | ticking
  | cleared
  | sampling (ignore : Finset NodeId)
  | dialing (peers : List (BootstrappedPeer P IpAddr))
  | connecting (peers : List (BootstrappedPeer P IpAddr))
  | returned

variable (c : Crates P NodeId) (seeds : List String) (numPeers : Nat)

/-- A move of the task; a failed sample leads to the next tick. -/
def bootstrapStep [DecidableEq NodeId] (now : Now P IpAddr) (stop : Bool) (connected : List P) :
    Bootstrap P NodeId IpAddr → Bootstrap P NodeId IpAddr × List (Event P IpAddr)
  | .ticking => if stop then (.returned, []) else (.cleared, [.round])
  | .cleared => (.sampling (connected.map c.fromPubkey).toFinset, [.ignoring connected])
  | .sampling ignore =>
      match sampleNodeAddrs now.round c ignore seeds numPeers with
      | .ok peers => (.dialing peers, [.sampled peers])
      | .error _ => (.ticking, [])
  | .dialing (peer :: peers) => (.connecting peers, [.dial .bootstrap peer.pubkey peer.addr])
  | .dialing [] => (.ticking, [])
  | .connecting peers => (.dialing peers, [])
  | .returned => (.returned, [])

/-- Where the task of a `ConnectionNeeded` event is. -/
inductive Needed (P IpAddr : Type) where
  | dialing (node : P) (sockaddrs : List (SocketAddr IpAddr))
      (addresses : List (SocketAddress IpAddr))
  | unconnected (node : P) (addr : SocketAddr IpAddr) (sockaddrs : List (SocketAddr IpAddr))
      (addresses : List (SocketAddress IpAddr))
  | connecting (node : P) (sockaddrs : List (SocketAddr IpAddr))
      (addresses : List (SocketAddress IpAddr))
  | returned

/-- A move of the `i`-th such task. -/
def neededStep [DecidableEq P] (i : Nat) (now : Now P IpAddr) (connected : List P) :
    Needed P IpAddr → Needed P IpAddr × List (Event P IpAddr)
  | .dialing node (addr :: sockaddrs) addresses =>
      if node ∈ connected then (.returned, [])
      else (.unconnected node addr sockaddrs addresses, [.unconnected (.needed i) node])
  | .dialing node [] (address :: addresses) =>
      (.dialing node ((now.resolve address).getD []) addresses,
        [.resolved (.needed i) address (now.resolve address)])
  | .dialing _ [] [] => (.returned, [])
  | .unconnected node addr sockaddrs addresses =>
      (.connecting node sockaddrs addresses, [.dial (.needed i) node addr])
  | .connecting node sockaddrs addresses =>
      if now.connects then (.returned, []) else (.dialing node sockaddrs addresses, [])
  | .returned => (.returned, [])

/-- The tasks, the flag, the connected peers, the accepted streams that wait for
    `setup_inbound`, and what was done so far. -/
structure Tasks (P NodeId IpAddr : Type) where
  stop      : Bool
  connected : List P
  reconnect : Reconnect P IpAddr
  bootstrap : Bootstrap P NodeId IpAddr
  needed    : List (Needed P IpAddr)
  listening : Bool
  accepted  : Nat
  history   : List (Event P IpAddr)

/-- What may happen next: a move of a task, or something around them. -/
inductive Move (P IpAddr : Type) where
  | reconnect (now : Now P IpAddr)
  | bootstrap (now : Now P IpAddr)
  | needed (i : Nat) (now : Now P IpAddr)
  | connectionNeeded (node : P) (addresses : List (SocketAddress IpAddr))
  | accept
  | setupInbound
  | peers (connected : List P)
  | stop

/-- One move; each task reads the flag and the peers as they are then. -/
def step [DecidableEq P] [DecidableEq NodeId] (s : Tasks P NodeId IpAddr) :
    Move P IpAddr → Option (Tasks P NodeId IpAddr)
  | .reconnect now =>
      let out := reconnectStep now s.stop s.connected s.reconnect
      some { s with reconnect := out.1, history := s.history ++ out.2 }
  | .bootstrap now =>
      let out := bootstrapStep c seeds numPeers now s.stop s.connected s.bootstrap
      some { s with bootstrap := out.1, history := s.history ++ out.2 }
  | .needed i now =>
      (s.needed[i]?).map fun task =>
        let out := neededStep i now s.connected task
        { s with needed := s.needed.set i out.1, history := s.history ++ out.2 }
  | .connectionNeeded node addresses =>
      some { s with
        needed := s.needed ++ [.dialing node [] addresses]
        history := s.history ++ [.wanted s.needed.length node addresses] }
  | .accept =>
      if !s.listening then none
      else if s.stop then some { s with listening := false }
      else some { s with accepted := s.accepted + 1, history := s.history ++ [.admitted] }
  | .setupInbound =>
      if s.accepted = 0 then none
      else some { s with accepted := s.accepted - 1, history := s.history ++ [.inbound] }
  | .peers connected => some { s with connected, history := s.history ++ [.peers connected] }
  | .stop =>
      if s.stop then none else some { s with stop := true, history := s.history ++ [.stop] }

/-- The tasks as `start_ldk` spawns them, the bootstrapper only if it is enabled. -/
def spawned (dnsEnabled : Bool) : Tasks P NodeId IpAddr where
  stop := false
  connected := []
  reconnect := .ticking
  bootstrap := if dnsEnabled then .ticking else .returned
  needed := []
  listening := true
  accepted := 0
  history := []

/-! ## What was seen -/

/-- The task that an event is of. -/
def Event.task : Event P IpAddr → Option Dialer
  | .listed _ | .turn _ | .announced _ _ => some .reconnect
  | .round | .ignoring _ | .sampled _ => some .bootstrap
  | .wanted i _ _ => some (.needed i)
  | .unconnected task _ | .resolved task _ _ | .dial task _ _ => some task
  | .peers _ | .admitted | .inbound | .stop => none

/-- The events of one task. -/
def own (task : Dialer) (h : List (Event P IpAddr)) : List (Event P IpAddr) :=
  h.filter fun e => e.task = some task

/-- The peers, where they changed. -/
def Event.peers? : Event P IpAddr → Option (List P)
  | .peers connected => some connected
  | _ => none

/-- The channels, where they were listed. -/
def Event.listed? : Event P IpAddr → Option (List P)
  | .listed channels => some channels
  | _ => none

/-- The flag was set. -/
def Event.isStop : Event P IpAddr → Bool
  | .stop => true
  | _ => false

/-- A stream was accepted with the flag clear. -/
def Event.isAdmitted : Event P IpAddr → Bool
  | .admitted => true
  | _ => false

/-- A stream was set up. -/
def Event.isInbound : Event P IpAddr → Bool
  | .inbound => true
  | _ => false

/-- The connected peers at this point. -/
def connectedAfter (h : List (Event P IpAddr)) : List P :=
  (h.filterMap Event.peers?).getLast?.getD []

/-- The counterparties of the channels, as the task that reconnects listed them last. -/
def lastListed (h : List (Event P IpAddr)) : List P :=
  (h.filterMap Event.listed?).getLast?.getD []

/-- The flag is set. -/
def stopped (h : List (Event P IpAddr)) : Bool := h.any Event.isStop

/-- An address that a lookup of these events found. -/
def Found (task : Dialer) (events : List (Event P IpAddr)) (addr : SocketAddr IpAddr) : Prop :=
  ∃ address found, .resolved task address (some found) ∈ events ∧ addr ∈ found

/-- The task that reconnects is at the addresses of `node`: it found the node
    unconnected, then the flag clear, then `info` in the graph, and since then it has
    only resolved what that announces and dialed. -/
def Turn (node : P) (info : Option (Option (List (SocketAddress IpAddr))))
    (events later : List (Event P IpAddr)) : Prop :=
  (∃ earlier, events = earlier ++
    [.unconnected .reconnect node, .turn node, .announced node info] ++ later) ∧
  ∀ e ∈ later, (∃ address ∈ announcedAddrs info, ∃ found,
    e = .resolved .reconnect address found) ∨ ∃ addr, e = .dial .reconnect node addr

/-- The bootstrapper is at the peers of a round: it found the flag clear, then these
    peers connected, sampled `peers` without them, and has dialed the first. -/
def AtPeers (connected : List P) (peers dialed : List (BootstrappedPeer P IpAddr))
    (events : List (Event P IpAddr)) : Prop :=
  ∃ earlier, events = earlier ++ [.round, .ignoring connected, .sampled peers] ++
    dialed.map fun peer => .dial .bootstrap peer.pubkey peer.addr

/-- The task of a `ConnectionNeeded` event has resolved some of its addresses. -/
def Wanted (i : Nat) (node : P) (addresses : List (SocketAddress IpAddr))
    (events later : List (Event P IpAddr)) : Prop :=
  events = .wanted i node addresses :: later ∧
  ∀ address found, .resolved (.needed i) address found ∈ later → address ∈ addresses

/-- The reason for an event, in what came before. -/
def Reason (h : List (Event P IpAddr)) : Event P IpAddr → Prop
  | .unconnected task node =>
      node ∉ connectedAfter h ∧ (task = .reconnect → node ∈ lastListed h)
  | .turn _ | .round | .admitted => stopped h = false
  | .ignoring connected => connected = connectedAfter h
  | .dial .reconnect node addr => ∃ info later,
      Turn node info (own .reconnect h) later ∧ Found .reconnect later addr
  | .dial .bootstrap node addr => ∃ connected peers dialed,
      AtPeers connected peers dialed (own .bootstrap h) ∧
      dialed ++ [⟨node, addr⟩] <+: peers ∧ peers.length ≤ numPeers ∧
      c.fromPubkey node ∉ connected.map c.fromPubkey
  | .dial (.needed i) node addr => ∃ addresses later,
      Wanted i node addresses (own (.needed i) h) (later ++ [.unconnected (.needed i) node]) ∧
      Found (.needed i) later addr
  | .inbound => h.countP Event.isInbound < h.countP Event.isAdmitted
  | _ => True

/-! ## Where the tasks are -/

/-- What the events of the task that reconnects say about where it is. -/
def ReconnectAt (listed : List P) (events : List (Event P IpAddr)) :
    Reconnect P IpAddr → Prop
  | .ticking | .returned => True
  | .nodes rest => ∀ node ∈ rest, node ∈ listed
  | .unconnected node rest => (∀ node ∈ rest, node ∈ listed) ∧
      ∃ earlier, events = earlier ++ [.unconnected .reconnect node]
  | .cleared node rest => (∀ node ∈ rest, node ∈ listed) ∧
      ∃ earlier, events = earlier ++ [.unconnected .reconnect node, .turn node]
  | .dialing node sockaddrs addrs rest | .connecting node sockaddrs addrs rest =>
      (∀ node ∈ rest, node ∈ listed) ∧ ∃ info later, Turn node info events later ∧
        (∀ addr ∈ addrs, addr ∈ announcedAddrs info) ∧
        ∀ addr ∈ sockaddrs, Found .reconnect later addr

/-- What the events of the bootstrapper say about where it is. -/
def BootstrapAt [DecidableEq NodeId] (events : List (Event P IpAddr)) :
    Bootstrap P NodeId IpAddr → Prop
  | .ticking | .returned => True
  | .cleared => ∃ earlier, events = earlier ++ [.round]
  | .sampling ignore => ∃ earlier connected, events = earlier ++ [.round, .ignoring connected] ∧
      ignore = (connected.map c.fromPubkey).toFinset
  | .dialing rest | .connecting rest => ∃ connected dialed,
      AtPeers connected (dialed ++ rest) dialed events ∧ (dialed ++ rest).length ≤ numPeers ∧
      ∀ peer ∈ rest, c.fromPubkey peer.pubkey ∉ connected.map c.fromPubkey

/-- What those of the `i`-th further task say. -/
def NeededAt (i : Nat) (events : List (Event P IpAddr)) : Needed P IpAddr → Prop
  | .returned => True
  | .dialing node sockaddrs addresses | .connecting node sockaddrs addresses =>
      ∃ all later, Wanted i node all events later ∧ (∀ address ∈ addresses, address ∈ all) ∧
        ∀ addr ∈ sockaddrs, Found (.needed i) later addr
  | .unconnected node addr sockaddrs addresses =>
      ∃ all later, Wanted i node all events (later ++ [.unconnected (.needed i) node]) ∧
        (∀ address ∈ addresses, address ∈ all) ∧
        ∀ a ∈ addr :: sockaddrs, Found (.needed i) later a

/-- The tasks are where their events say, and each event had its reason. -/
structure Accounted [DecidableEq NodeId] (s : Tasks P NodeId IpAddr) : Prop where
  connected : connectedAfter s.history = s.connected
  stop : stopped s.history = s.stop
  accepted : s.history.countP Event.isInbound + s.accepted =
    s.history.countP Event.isAdmitted
  reconnect : ReconnectAt (lastListed s.history) (own .reconnect s.history) s.reconnect
  bootstrap : BootstrapAt c numPeers (own .bootstrap s.history) s.bootstrap
  needed : ∀ i task, s.needed[i]? = some task → NeededAt i (own (.needed i) s.history) task
  fresh : ∀ i, s.needed.length ≤ i → own (.needed i) s.history = []
  reasons : Allowed (Reason c numPeers) [] s.history

/-! ## Events of one task -/

section Events

variable {h done : List (Event P IpAddr)} {task other : Dialer}

theorem own_append (task : Dialer) (h done : List (Event P IpAddr)) :
    own task (h ++ done) = own task h ++ own task done := List.filter_append _ _

theorem own_self (hdone : ∀ e ∈ done, e.task = some task) : own task done = done :=
  List.filter_eq_self.mpr fun e he => decide_eq_true (hdone e he)

theorem own_other (hdone : ∀ e ∈ done, e.task = some task) (hne : task ≠ other) :
    own other done = [] := by
  refine List.filter_eq_nil_iff.mpr fun e he hother => hne ?_
  exact Option.some.inj ((hdone e he).symm.trans (of_decide_eq_true hother))

/-- The events of a task do not change the peers, the flag or the listener. -/
theorem task_events (hdone : ∀ e ∈ done, e.task = some task) :
    connectedAfter (h ++ done) = connectedAfter h ∧ stopped (h ++ done) = stopped h ∧
      (h ++ done).countP Event.isInbound = h.countP Event.isInbound ∧
      (h ++ done).countP Event.isAdmitted = h.countP Event.isAdmitted := by
  have hpeers : done.filterMap Event.peers? = [] := by
    refine List.filterMap_eq_nil_iff.mpr fun e he => ?_
    cases e with
    | peers => exact nomatch hdone _ he
    | _ => rfl
  have hstop : done.any Event.isStop = false := by
    refine List.any_eq_false.mpr fun e he => ?_
    cases e with
    | stop => exact nomatch hdone _ he
    | _ => exact Bool.false_ne_true
  have hinbound : done.countP Event.isInbound = 0 := by
    refine List.countP_eq_zero.mpr fun e he => ?_
    cases e with
    | inbound => exact nomatch hdone _ he
    | _ => exact Bool.false_ne_true
  have hadmitted : done.countP Event.isAdmitted = 0 := by
    refine List.countP_eq_zero.mpr fun e he => ?_
    cases e with
    | admitted => exact nomatch hdone _ he
    | _ => exact Bool.false_ne_true
  refine ⟨?_, ?_, ?_, ?_⟩
  · rw [connectedAfter, List.filterMap_append, hpeers, List.append_nil, connectedAfter]
  · rw [stopped, List.any_append, hstop, Bool.or_false, stopped]
  · rw [List.countP_append, hinbound, Nat.add_zero]
  · rw [List.countP_append, hadmitted, Nat.add_zero]

theorem lastListed_append (hdone : ∀ e ∈ done, e.listed? = none) :
    lastListed (h ++ done) = lastListed h := by
  rw [lastListed, List.filterMap_append, List.filterMap_eq_nil_iff.mpr hdone, List.append_nil,
    lastListed]

theorem listed_of_task (hdone : ∀ e ∈ done, e.task = some task) (hne : task ≠ .reconnect) :
    ∀ e ∈ done, e.listed? = none := by
  intro e he
  cases e with
  | listed => exact absurd (Option.some.inj (hdone _ he)).symm hne
  | _ => rfl

theorem Found.append {addr : SocketAddr IpAddr} (hf : Found task h addr) :
    Found task (h ++ done) addr := by
  obtain ⟨address, found, hmem, haddr⟩ := hf
  exact ⟨address, found, List.mem_append_left _ hmem, haddr⟩

/-- What a lookup found is at hand after it. -/
theorem found_of_lookup {address : SocketAddress IpAddr}
    {found : Option (List (SocketAddr IpAddr))} :
    ∀ addr ∈ found.getD [],
      Found task (h ++ [(.resolved task address found : Event P IpAddr)]) addr := by
  cases found with
  | none => exact fun addr haddr => absurd haddr List.not_mem_nil
  | some found => exact fun addr haddr => ⟨address, found, by simp, haddr⟩

end Events

/-! ## The task that reconnects -/

section Reconnect

variable {h : List (Event P IpAddr)} {r : Reconnect P IpAddr}

/-- A turn goes on with what it resolves and dials. -/
theorem Turn.append {node : P} {info : Option (Option (List (SocketAddress IpAddr)))}
    {events later : List (Event P IpAddr)} {e : Event P IpAddr} (ht : Turn node info events later)
    (he : (∃ address ∈ announcedAddrs info, ∃ found, e = .resolved .reconnect address found) ∨
      ∃ addr, e = .dial .reconnect node addr) :
    Turn node info (events ++ [e]) (later ++ [e]) := by
  obtain ⟨⟨earlier, rfl⟩, hlater⟩ := ht
  refine ⟨⟨earlier, by simp⟩, fun d hd => ?_⟩
  rcases List.mem_append.mp hd with hmem | hmem
  · exact hlater d hmem
  · obtain rfl := List.mem_singleton.mp hmem
    exact he

/-- **RECONNECT STEP**: a move leaves the task where its events say, with its reason. -/
theorem reconnectStep_spec [DecidableEq P] (now : Now P IpAddr)
    (hat : ReconnectAt (lastListed h) (own .reconnect h) r) :
    let out := reconnectStep now (stopped h) (connectedAfter h) r
    (∀ e ∈ out.2, e.task = some .reconnect) ∧ Allowed (Reason c numPeers) h out.2 ∧
      ReconnectAt (lastListed (h ++ out.2)) (own .reconnect h ++ out.2) out.1 := by
  -- a move with no event, and a move with one
  have hnone : ∀ {r' : Reconnect P IpAddr}, ReconnectAt (lastListed h) (own .reconnect h) r' →
      (∀ e ∈ ([] : List (Event P IpAddr)), e.task = some .reconnect) ∧
        Allowed (Reason c numPeers) h [] ∧
        ReconnectAt (lastListed (h ++ [])) (own .reconnect h ++ []) r' := by
    intro r' hr
    rw [List.append_nil, List.append_nil]
    exact ⟨fun _ he => absurd he List.not_mem_nil, trivial, hr⟩
  have hone : ∀ {e : Event P IpAddr} {r' : Reconnect P IpAddr}, e.task = some .reconnect →
      e.listed? = none → Reason c numPeers h e →
      ReconnectAt (lastListed h) (own .reconnect h ++ [e]) r' →
      (∀ d ∈ [e], d.task = some .reconnect) ∧ Allowed (Reason c numPeers) h [e] ∧
        ReconnectAt (lastListed (h ++ [e])) (own .reconnect h ++ [e]) r' := by
    intro e r' htask hlisted hreason hr
    rw [lastListed_append (by simpa using hlisted)]
    exact ⟨by simpa using htask, ⟨hreason, trivial⟩, hr⟩
  cases r with
  | ticking =>
      refine ⟨by simp [reconnectStep, Event.task], ⟨trivial, trivial⟩, ?_⟩
      intro node hnode
      rw [lastListed, List.filterMap_append]
      simpa [reconnectStep, Event.listed?] using hnode
  | nodes rest =>
      cases rest with
      | nil => exact hnone trivial
      | cons node rest =>
          -- the nodes left are still from the last listing
          have hrest : ∀ n ∈ rest, n ∈ lastListed h :=
            fun n hn => hat n (List.mem_cons_of_mem _ hn)
          rw [reconnectStep]
          split
          · exact hnone hrest
          · rename_i hout
            exact hone rfl rfl ⟨hout, fun _ => hat node List.mem_cons_self⟩
              ⟨hrest, own .reconnect h, rfl⟩
  | unconnected node rest =>
      obtain ⟨hrest, earlier, hevents⟩ := hat
      rw [reconnectStep]
      cases hstop : stopped h with
      | true => exact hnone trivial
      | false =>
          refine hone rfl rfl hstop ⟨hrest, earlier, ?_⟩
          rw [hevents, List.append_assoc]
          rfl
  | cleared node rest =>
      obtain ⟨hrest, earlier, hevents⟩ := hat
      refine hone rfl rfl trivial ⟨hrest, now.node node, [], ⟨⟨earlier, ?_⟩, ?_⟩, ?_, ?_⟩
      · rw [hevents, List.append_assoc, List.append_nil]
        rfl
      · exact fun _ he => absurd he List.not_mem_nil
      · exact fun _ haddr => haddr
      · exact fun _ haddr => absurd haddr List.not_mem_nil
  | dialing node sockaddrs addrs rest =>
      obtain ⟨hrest, info, later, hturn, haddrs, hfound⟩ := hat
      cases sockaddrs with
      | cons addr sockaddrs =>
          refine hone rfl rfl ⟨info, later, hturn, hfound addr List.mem_cons_self⟩
            ⟨hrest, info, _, hturn.append (Or.inr ⟨addr, rfl⟩), haddrs, fun a ha => ?_⟩
          exact (hfound a (List.mem_cons_of_mem _ ha)).append
      | nil =>
          cases addrs with
          | nil => exact hnone hrest
          | cons address addrs =>
              refine hone rfl rfl trivial ⟨hrest, info, _, hturn.append (Or.inl
                ⟨address, haddrs address List.mem_cons_self, now.resolve address, rfl⟩),
                fun a ha => haddrs a (List.mem_cons_of_mem _ ha), found_of_lookup⟩
  | connecting node sockaddrs addrs rest => exact hnone hat
  | returned => exact hnone trivial

end Reconnect

/-! ## The bootstrapper -/

section Bootstrap

variable {c numPeers} {h : List (Event P IpAddr)} [DecidableEq NodeId]
  {b : Bootstrap P NodeId IpAddr}

/-- What a round samples is short enough and was not connected. -/
theorem sampled_new {r : Round IpAddr} {ignore : Finset NodeId}
    {peers : List (BootstrappedPeer P IpAddr)}
    (hsampled : sampleNodeAddrs r c ignore seeds numPeers = .ok peers) :
    peers.length ≤ numPeers ∧ ∀ peer ∈ peers, c.fromPubkey peer.pubkey ∉ ignore := by
  rw [sampleNodeAddrs_eq] at hsampled
  split at hsampled
  · cases hsampled
  · obtain rfl := Except.ok.inj hsampled
    refine ⟨List.length_take_le _ _, fun peer hpeer => ?_⟩
    obtain ⟨record, -, husable⟩ := List.mem_filterMap.mp (List.mem_of_mem_take hpeer)
    exact (usable_key husable).1

/-- The next of the sampled peers is dialed. -/
theorem AtPeers.dialed {connected : List P} {peers dialed : List (BootstrappedPeer P IpAddr)}
    {events : List (Event P IpAddr)} (hat : AtPeers connected peers dialed events)
    (peer : BootstrappedPeer P IpAddr) :
    AtPeers connected peers (dialed ++ [peer])
      (events ++ [.dial .bootstrap peer.pubkey peer.addr]) := by
  obtain ⟨earlier, rfl⟩ := hat
  exact ⟨earlier, by simp⟩

/-- **BOOTSTRAP STEP**: as for the task that reconnects. -/
theorem bootstrapStep_spec (now : Now P IpAddr)
    (hat : BootstrapAt c numPeers (own .bootstrap h) b) :
    let out := bootstrapStep c seeds numPeers now (stopped h) (connectedAfter h) b
    (∀ e ∈ out.2, e.task = some .bootstrap) ∧ Allowed (Reason c numPeers) h out.2 ∧
      BootstrapAt c numPeers (own .bootstrap h ++ out.2) out.1 := by
  have hnone : ∀ {b' : Bootstrap P NodeId IpAddr},
      BootstrapAt c numPeers (own .bootstrap h) b' →
      (∀ e ∈ ([] : List (Event P IpAddr)), e.task = some .bootstrap) ∧
        Allowed (Reason c numPeers) h [] ∧
        BootstrapAt c numPeers (own .bootstrap h ++ []) b' := by
    intro b' hb
    rw [List.append_nil]
    exact ⟨fun _ he => absurd he List.not_mem_nil, trivial, hb⟩
  have hone : ∀ {e : Event P IpAddr} {b' : Bootstrap P NodeId IpAddr},
      e.task = some .bootstrap → Reason c numPeers h e →
      BootstrapAt c numPeers (own .bootstrap h ++ [e]) b' →
      (∀ d ∈ [e], d.task = some .bootstrap) ∧ Allowed (Reason c numPeers) h [e] ∧
        BootstrapAt c numPeers (own .bootstrap h ++ [e]) b' :=
    fun htask hreason hb => ⟨by simpa using htask, ⟨hreason, trivial⟩, hb⟩
  cases b with
  | ticking =>
      rw [bootstrapStep]
      cases hstop : stopped h with
      | true => exact hnone trivial
      | false => exact hone rfl hstop ⟨own .bootstrap h, rfl⟩
  | cleared =>
      obtain ⟨earlier, hevents⟩ := hat
      refine hone rfl rfl ⟨earlier, connectedAfter h, ?_, rfl⟩
      rw [hevents, List.append_assoc]
      rfl
  | sampling ignore =>
      obtain ⟨earlier, connected, hevents, rfl⟩ := hat
      rw [bootstrapStep]
      cases hsampled : sampleNodeAddrs now.round c (connected.map c.fromPubkey).toFinset seeds
          numPeers with
      | error e => exact hnone trivial
      | ok peers =>
          -- the sample is new to what was connected at the beginning of the round
          obtain ⟨hlength, hnew⟩ := sampled_new seeds hsampled
          refine hone rfl trivial ⟨connected, [], ⟨earlier, ?_⟩, hlength, fun peer hpeer => ?_⟩
          · rw [hevents, List.append_assoc, List.map_nil, List.append_nil]
            rfl
          · exact fun hmem => hnew peer hpeer (List.mem_toFinset.mpr hmem)
  | dialing rest =>
      cases rest with
      | nil => exact hnone trivial
      | cons peer rest =>
          obtain ⟨connected, dialed, hpeers, hlength, hnew⟩ := hat
          have hsplit : dialed ++ peer :: rest = dialed ++ [peer] ++ rest := by simp
          rw [hsplit] at hpeers hlength
          refine hone rfl ⟨connected, _, dialed, hpeers, List.prefix_append _ _, hlength,
            hnew peer List.mem_cons_self⟩ ⟨connected, dialed ++ [peer], hpeers.dialed peer,
            hlength, fun p hp => hnew p (List.mem_cons_of_mem _ hp)⟩
  | connecting rest => exact hnone hat
  | returned => exact hnone trivial

end Bootstrap

/-! ## The task of a `ConnectionNeeded` event -/

section Needed

variable {h : List (Event P IpAddr)} {i : Nat} {t : Needed P IpAddr}

/-- A task resolves only addresses that it was given. -/
theorem Wanted.append {node : P} {addresses : List (SocketAddress IpAddr)}
    {events later : List (Event P IpAddr)} {e : Event P IpAddr}
    (hw : Wanted i node addresses events later)
    (he : ∀ address found, e = .resolved (.needed i) address found → address ∈ addresses) :
    Wanted i node addresses (events ++ [e]) (later ++ [e]) := by
  obtain ⟨rfl, hresolved⟩ := hw
  refine ⟨rfl, fun address found hmem => ?_⟩
  rcases List.mem_append.mp hmem with hlater | hlast
  · exact hresolved address found hlater
  · exact he address found (List.mem_singleton.mp hlast).symm

/-- **NEEDED STEP**: as for the task that reconnects. -/
theorem neededStep_spec [DecidableEq P] (now : Now P IpAddr)
    (hat : NeededAt i (own (.needed i) h) t) :
    let out := neededStep i now (connectedAfter h) t
    (∀ e ∈ out.2, e.task = some (.needed i)) ∧ Allowed (Reason c numPeers) h out.2 ∧
      NeededAt i (own (.needed i) h ++ out.2) out.1 := by
  have hnone : ∀ {t' : Needed P IpAddr}, NeededAt i (own (.needed i) h) t' →
      (∀ e ∈ ([] : List (Event P IpAddr)), e.task = some (.needed i)) ∧
        Allowed (Reason c numPeers) h [] ∧ NeededAt i (own (.needed i) h ++ []) t' := by
    intro t' ht
    rw [List.append_nil]
    exact ⟨fun _ he => absurd he List.not_mem_nil, trivial, ht⟩
  have hone : ∀ {e : Event P IpAddr} {t' : Needed P IpAddr}, e.task = some (.needed i) →
      Reason c numPeers h e → NeededAt i (own (.needed i) h ++ [e]) t' →
      (∀ d ∈ [e], d.task = some (.needed i)) ∧ Allowed (Reason c numPeers) h [e] ∧
        NeededAt i (own (.needed i) h ++ [e]) t' :=
    fun htask hreason ht => ⟨by simpa using htask, ⟨hreason, trivial⟩, ht⟩
  cases t with
  | dialing node sockaddrs addresses =>
      obtain ⟨all, later, hwanted, haddresses, hfound⟩ := hat
      cases sockaddrs with
      | cons addr sockaddrs =>
          rw [neededStep]
          split
          · exact hnone trivial
          · rename_i hout
            exact hone rfl ⟨hout, nofun⟩
              ⟨all, later, hwanted.append (fun _ _ he => nomatch he), haddresses, hfound⟩
      | nil =>
          cases addresses with
          | nil => exact hnone trivial
          | cons address addresses =>
              -- the next address is one of the event's, and it is looked up now
              have hmem := haddresses address List.mem_cons_self
              refine hone rfl trivial ⟨all, _, hwanted.append ?_,
                fun a ha => haddresses a (List.mem_cons_of_mem _ ha), found_of_lookup⟩
              rintro _ _ ⟨⟩
              exact hmem
  | unconnected node addr sockaddrs addresses =>
      obtain ⟨all, later, hwanted, haddresses, hfound⟩ := hat
      refine hone rfl ⟨all, later, hwanted, hfound addr List.mem_cons_self⟩
        ⟨all, _, hwanted.append (fun _ _ he => nomatch he), haddresses, fun a ha => ?_⟩
      exact (hfound a (List.mem_cons_of_mem _ ha)).append.append
  | connecting node sockaddrs addresses =>
      rw [neededStep]
      split
      · exact hnone trivial
      · exact hnone hat
  | returned => exact hnone trivial

end Needed

/-! ## Runs -/

section Runs

variable {c seeds numPeers} {s s' : Tasks P NodeId IpAddr}

/-- A move outside of the tasks, and what it changes. -/
theorem accounted_of_other [DecidableEq NodeId] {e : Event P IpAddr} (hs : Accounted c numPeers s)
    (htask : e.task = none) (hreason : Reason c numPeers s.history e)
    (hhistory : s'.history = s.history ++ [e]) (hreconnect : s'.reconnect = s.reconnect)
    (hbootstrap : s'.bootstrap = s.bootstrap) (hneeded : s'.needed = s.needed)
    (hconnected : connectedAfter (s.history ++ [e]) = s'.connected)
    (hstop : stopped (s.history ++ [e]) = s'.stop)
    (haccepted : (s.history ++ [e]).countP Event.isInbound + s'.accepted =
      (s.history ++ [e]).countP Event.isAdmitted) : Accounted c numPeers s' := by
  have hown : ∀ task, own task (s.history ++ [e]) = own task s.history := by
    intro task
    have hnil : own task [e] = [] := by
      refine List.filter_eq_nil_iff.mpr fun d hd => ?_
      rw [List.mem_singleton.mp hd, htask]
      exact Bool.false_ne_true
    rw [own_append, hnil, List.append_nil]
  have hlisted : lastListed (s.history ++ [e]) = lastListed s.history := by
    refine lastListed_append fun d hd => ?_
    obtain rfl := List.mem_singleton.mp hd
    cases d with
    | listed => exact nomatch htask
    | _ => rfl
  constructor
  · rw [hhistory, hconnected]
  · rw [hhistory, hstop]
  · rw [hhistory, haccepted]
  · rw [hhistory, hown, hlisted, hreconnect]
    exact hs.reconnect
  · rw [hhistory, hown, hbootstrap]
    exact hs.bootstrap
  · intro i task htask'
    rw [hneeded] at htask'
    rw [hhistory, hown]
    exact hs.needed i task htask'
  · intro i hi
    rw [hneeded] at hi
    rw [hhistory, hown]
    exact hs.fresh i hi
  · rw [hhistory, allowed_append]
    exact ⟨hs.reasons, hreason, trivial⟩

/-- What the events of one task leave as it is for the others. -/
theorem task_others [DecidableEq NodeId] {task : Dialer} {done : List (Event P IpAddr)}
    (hs : Accounted c numPeers s) (hdone : ∀ e ∈ done, e.task = some task)
    (hreasons : Allowed (Reason c numPeers) s.history done) :
    connectedAfter (s.history ++ done) = s.connected ∧
    stopped (s.history ++ done) = s.stop ∧
    (s.history ++ done).countP Event.isInbound + s.accepted =
      (s.history ++ done).countP Event.isAdmitted ∧
    (∀ other, task ≠ other → own other (s.history ++ done) = own other s.history) ∧
    own task (s.history ++ done) = own task s.history ++ done ∧
    Allowed (Reason c numPeers) [] (s.history ++ done) := by
  obtain ⟨hconnected, hstop, hinbound, hadmitted⟩ := task_events (h := s.history) hdone
  refine ⟨hconnected.trans hs.connected, hstop.trans hs.stop, ?_, fun other hne => ?_, ?_, ?_⟩
  · rw [hinbound, hadmitted, hs.accepted]
  · rw [own_append, own_other hdone hne, List.append_nil]
  · rw [own_append, own_self hdone]
  · rw [allowed_append]
    exact ⟨hs.reasons, hreasons⟩

/-- A move of the task that reconnects: its own place is the lemma's, the other tasks have
    no event of theirs in it. -/
theorem accounted_reconnect [DecidableEq P] [DecidableEq NodeId] (now : Now P IpAddr)
    (hs : Accounted c numPeers s)
    (hstep : step c seeds numPeers s (.reconnect now) = some s') :
    Accounted c numPeers s' := by
  obtain rfl := Option.some.inj hstep
  obtain ⟨hdone, hreasons, hat⟩ := reconnectStep_spec c numPeers now hs.reconnect
  rw [hs.stop, hs.connected] at hdone hreasons hat
  obtain ⟨hconnected, hstop, haccepted, hothers, hown, hall⟩ :=
    task_others hs hdone hreasons
  refine ⟨hconnected, hstop, haccepted, ?_, ?_, fun i task htask => ?_, fun i hi => ?_, hall⟩
  · rw [hown]
    exact hat
  · rw [hothers .bootstrap nofun]
    exact hs.bootstrap
  · rw [hothers (.needed i) nofun]
    exact hs.needed i task htask
  · rw [hothers (.needed i) nofun]
    exact hs.fresh i hi

/-- A move of the bootstrapper, which lists no channels. -/
theorem accounted_bootstrap [DecidableEq P] [DecidableEq NodeId] (now : Now P IpAddr)
    (hs : Accounted c numPeers s)
    (hstep : step c seeds numPeers s (.bootstrap now) = some s') :
    Accounted c numPeers s' := by
  obtain rfl := Option.some.inj hstep
  obtain ⟨hdone, hreasons, hat⟩ := bootstrapStep_spec seeds now hs.bootstrap
  rw [hs.stop, hs.connected] at hdone hreasons hat
  obtain ⟨hconnected, hstop, haccepted, hothers, hown, hall⟩ :=
    task_others hs hdone hreasons
  refine ⟨hconnected, hstop, haccepted, ?_, ?_, fun i task htask => ?_, fun i hi => ?_, hall⟩
  · rw [hothers .reconnect nofun, lastListed_append (listed_of_task hdone nofun)]
    exact hs.reconnect
  · rw [hown]
    exact hat
  · rw [hothers (.needed i) nofun]
    exact hs.needed i task htask
  · rw [hothers (.needed i) nofun]
    exact hs.fresh i hi

/-- A move of the `i`-th task of a `ConnectionNeeded` event: the others keep their place
    in the list of these tasks. -/
theorem accounted_needed [DecidableEq P] [DecidableEq NodeId] (i : Nat) (now : Now P IpAddr)
    (hs : Accounted c numPeers s)
    (hstep : step c seeds numPeers s (.needed i now) = some s') :
    Accounted c numPeers s' := by
  obtain ⟨t, ht, rfl⟩ := Option.map_eq_some_iff.mp hstep
  obtain ⟨hdone, hreasons, hat⟩ := neededStep_spec c numPeers now (hs.needed i t ht)
  rw [hs.connected] at hdone hreasons hat
  obtain ⟨hconnected, hstop, haccepted, hothers, hown, hall⟩ :=
    task_others hs hdone hreasons
  have hi : i < s.needed.length := (List.getElem?_eq_some_iff.mp ht).1
  refine ⟨hconnected, hstop, haccepted, ?_, ?_, fun j task htask => ?_, fun j hj => ?_, hall⟩
  · rw [hothers .reconnect nofun, lastListed_append (listed_of_task hdone nofun)]
    exact hs.reconnect
  · rw [hothers .bootstrap nofun]
    exact hs.bootstrap
  · by_cases hij : i = j
    · subst hij
      rw [List.getElem?_set_self hi] at htask
      obtain rfl := Option.some.inj htask
      rw [hown]
      exact hat
    · rw [List.getElem?_set_ne hij] at htask
      rw [hothers (.needed j) fun h => hij (Dialer.needed.inj h)]
      exact hs.needed j task htask
  · rw [List.length_set] at hj
    rw [hothers (.needed j) fun h => absurd (Dialer.needed.inj h) (by omega)]
    exact hs.fresh j hj

/-- A `ConnectionNeeded` event spawns a task after the ones there are, with no event yet. -/
theorem accounted_connectionNeeded [DecidableEq P] [DecidableEq NodeId] (node : P)
    (addresses : List (SocketAddress IpAddr)) (hs : Accounted c numPeers s)
    (hstep : step c seeds numPeers s (.connectionNeeded node addresses) = some s') :
    Accounted c numPeers s' := by
  obtain rfl := Option.some.inj hstep
  have hdone : ∀ e ∈ [(.wanted s.needed.length node addresses : Event P IpAddr)],
      e.task = some (.needed s.needed.length) := by simp [Event.task]
  obtain ⟨hconnected, hstop, haccepted, hothers, hown, hall⟩ :=
    task_others hs hdone ⟨trivial, trivial⟩
  refine ⟨hconnected, hstop, haccepted, ?_, ?_, fun j task htask => ?_, fun j hj => ?_, hall⟩
  · rw [hothers .reconnect nofun, lastListed_append (listed_of_task hdone nofun)]
    exact hs.reconnect
  · rw [hothers .bootstrap nofun]
    exact hs.bootstrap
  · by_cases hij : j = s.needed.length
    · subst hij
      rw [List.getElem?_concat_length] at htask
      obtain rfl := Option.some.inj htask
      rw [hown, hs.fresh _ (Nat.le_refl _)]
      exact ⟨addresses, [], ⟨rfl, nofun⟩, fun _ ha => ha, nofun⟩
    · have hj : j < s.needed.length := by
        have hlt := (List.getElem?_eq_some_iff.mp htask).1
        rw [List.length_append, List.length_singleton] at hlt
        omega
      rw [List.getElem?_append_left hj] at htask
      rw [hothers (.needed j) fun h => hij (Dialer.needed.inj h).symm]
      exact hs.needed j task htask
  · rw [List.length_append, List.length_singleton] at hj
    rw [hothers (.needed j) fun h => absurd (Dialer.needed.inj h) (by omega)]
    exact hs.fresh j (by omega)

/-- The listener admits a stream only while the flag is clear, and stops listening
    otherwise. -/
theorem accounted_accept [DecidableEq P] [DecidableEq NodeId] (hs : Accounted c numPeers s)
    (hstep : step c seeds numPeers s .accept = some s') : Accounted c numPeers s' := by
  rw [step] at hstep
  split at hstep
  · cases hstep
  split at hstep
  · obtain rfl := Option.some.inj hstep
    exact ⟨hs.connected, hs.stop, hs.accepted, hs.reconnect, hs.bootstrap, hs.needed,
      hs.fresh, hs.reasons⟩
  · rename_i hstop
    obtain rfl := Option.some.inj hstep
    refine accounted_of_other hs rfl ?_ rfl rfl rfl rfl ?_ ?_ ?_
    · exact hs.stop.trans (Bool.eq_false_iff.mpr hstop)
    · simpa [connectedAfter, Event.peers?] using hs.connected
    · simpa [stopped, Event.isStop] using hs.stop
    · have haccepted := hs.accepted
      simp only [List.countP_append, List.countP_singleton, Event.isInbound,
        Event.isAdmitted]
      show _ + 0 + (s.accepted + 1) = _ + 1
      omega

/-- A set-up uses a stream that was admitted and still waits. -/
theorem accounted_setupInbound [DecidableEq P] [DecidableEq NodeId]
    (hs : Accounted c numPeers s)
    (hstep : step c seeds numPeers s .setupInbound = some s') : Accounted c numPeers s' := by
  rw [step] at hstep
  split at hstep
  · cases hstep
  · rename_i hpending
    obtain rfl := Option.some.inj hstep
    have haccepted := hs.accepted
    refine accounted_of_other hs rfl ?_ rfl rfl rfl rfl ?_ ?_ ?_
    · show s.history.countP Event.isInbound < s.history.countP Event.isAdmitted
      omega
    · simpa [connectedAfter, Event.peers?] using hs.connected
    · simpa [stopped, Event.isStop] using hs.stop
    · simp only [List.countP_append, List.countP_singleton, Event.isInbound,
        Event.isAdmitted]
      show _ + 1 + (s.accepted - 1) = _ + 0
      omega

/-- The peers change around the tasks. -/
theorem accounted_peers [DecidableEq P] [DecidableEq NodeId] (connected : List P)
    (hs : Accounted c numPeers s)
    (hstep : step c seeds numPeers s (.peers connected) = some s') :
    Accounted c numPeers s' := by
  obtain rfl := Option.some.inj hstep
  refine accounted_of_other (e := .peers connected) hs rfl trivial rfl rfl rfl rfl ?_ ?_ ?_
  · simp [connectedAfter, Event.peers?]
  · simpa [stopped, Event.isStop] using hs.stop
  · simpa [List.countP_append, Event.isInbound, Event.isAdmitted] using hs.accepted

/-- The flag is set, once. -/
theorem accounted_stop [DecidableEq P] [DecidableEq NodeId] (hs : Accounted c numPeers s)
    (hstep : step c seeds numPeers s .stop = some s') : Accounted c numPeers s' := by
  rw [step] at hstep
  split at hstep
  · cases hstep
  · obtain rfl := Option.some.inj hstep
    refine accounted_of_other (e := .stop) hs rfl trivial rfl rfl rfl rfl ?_ ?_ ?_
    · simpa [connectedAfter, Event.peers?] using hs.connected
    · simp [stopped, Event.isStop]
    · simpa [List.countP_append, Event.isInbound, Event.isAdmitted] using hs.accepted

/-- **TASKS STEP**: a move keeps the tasks accounted for. -/
theorem accounted_step [DecidableEq P] [DecidableEq NodeId] {m : Move P IpAddr}
    (hs : Accounted c numPeers s) (hstep : step c seeds numPeers s m = some s') :
    Accounted c numPeers s' := by
  cases m with
  | reconnect now => exact accounted_reconnect now hs hstep
  | bootstrap now => exact accounted_bootstrap now hs hstep
  | needed i now => exact accounted_needed i now hs hstep
  | connectionNeeded node addresses => exact accounted_connectionNeeded node addresses hs hstep
  | accept => exact accounted_accept hs hstep
  | setupInbound => exact accounted_setupInbound hs hstep
  | peers connected => exact accounted_peers connected hs hstep
  | stop => exact accounted_stop hs hstep

theorem accounted_spawned [DecidableEq NodeId] (dnsEnabled : Bool) :
    Accounted c numPeers (spawned dnsEnabled : Tasks P NodeId IpAddr) where
  connected := rfl
  stop := rfl
  accepted := rfl
  reconnect := trivial
  bootstrap := by cases dnsEnabled <;> exact trivial
  needed := nofun
  fresh := fun _ _ => rfl
  reasons := trivial

/-- **CONNECTIONS ACCOUNTED FOR**: in every run of the tasks, each thing they do has its
    reason in what came before.  A node is dialed by the task that reconnects if it had a
    channel in the last listing, was found unconnected and the flag clear at its turn, and
    at an address that it announces and that is no onion; by the bootstrapper if it is one
    of at most `numPeers` that a round sampled, was not connected at its beginning, and
    only once for each time it was sampled; for an event if it was found unconnected just
    before, at an address of the event.  A stream is set up for each accepted one at most,
    and none is accepted with the flag set. -/
theorem connections_accounted [DecidableEq P] [DecidableEq NodeId] (dnsEnabled : Bool)
    (hrun : Reach (step c seeds numPeers) anyStep (spawned dnsEnabled) s) :
    ∀ before e after, s.history = before ++ e :: after → Reason c numPeers before e := by
  have hs : Accounted c numPeers s :=
    reach_invariant (fun _ _ _ ht _ hstep => accounted_step ht hstep) hrun
      (accounted_spawned dnsEnabled)
  exact fun before e after hsplit => allowed_split hs.reasons hsplit

/-- One channel, with a peer that announces an onion and two hosts. -/
def quietNow : Now TestKey Nat where
  channels := [.first]
  node := fun _ => some (some [.onionV2 [], .tcpIp 1 9735, .tcpIp 2 9735])
  resolve
    | .tcpIp addr port => some [(addr, port)]
    | _ => none
  round := ⟨fun _ _ => .elapsed, fun _ _ _ => .elapsed⟩
  connects := false

/-- The flag is set while the first of the two hosts is dialed. -/
def stoppedMidway : List (Move TestKey Nat) :=
  List.replicate 6 (.reconnect quietNow) ++ .stop :: List.replicate 3 (.reconnect quietNow)

/-- A dial in a turn that began before the flag was set. -/
theorem connections_accounted_stoppedMidway :
    ∃ s : Tasks TestKey (List UInt8) Nat,
      Reach (step testCrates [] 2) anyStep (spawned false) s ∧ ∃ before after,
      s.history = before ++ .dial .reconnect .first (2, 9735) :: after ∧
      Reason testCrates 2 before (.dial .reconnect .first (2, 9735)) := by
  obtain ⟨s, hrun, hcheck⟩ := reach_of_check (spawned false : Tasks TestKey (List UInt8) Nat)
    (step testCrates [] 2) anyStep stoppedMidway
    (fun s => decide (s.history =
      s.history.take 8 ++ .dial .reconnect .first (2, 9735) :: s.history.drop 9)) (by decide)
  have hsplit := of_decide_eq_true hcheck
  exact ⟨s, hrun, _, _, hsplit, connections_accounted false hrun _ _ _ hsplit⟩

/-! ## After the flag is set -/

/-- What was done since the flag was set. -/
def sinceStop : List (Event P IpAddr) → List (Event P IpAddr)
  | [] => []
  | .stop :: rest => rest
  | _ :: rest => sinceStop rest

/-- A task begins with a node, with a round or with a stream. -/
def Event.begins : Event P IpAddr → Bool
  | .turn _ | .round | .admitted => true
  | _ => false

/-- The node that the task which reconnects dials. -/
def Event.reconnects? : Event P IpAddr → Option P
  | .dial .reconnect node _ => some node
  | _ => none

/-- The bootstrapper dials. -/
def Event.bootstraps : Event P IpAddr → Bool
  | .dial .bootstrap _ _ => true
  | _ => false

/-- What may still be done with the flag set: nothing is begun, the task that reconnects
    finishes with one node, and the bootstrapper with one round. -/
structure WindsDown (numPeers : Nat) (h : List (Event P IpAddr)) : Prop where
  begun : ∀ e ∈ sinceStop h, e.begins = false
  reconnects : ∃ node : Option P, ∀ n ∈ (sinceStop h).filterMap Event.reconnects?,
    some n = node
  bootstraps : (sinceStop h).countP Event.bootstraps ≤ numPeers

/-- The node whose addresses the task that reconnects is at. -/
def Reconnect.node? : Reconnect P IpAddr → Option P
  | .cleared node _ | .dialing node _ _ _ | .connecting node _ _ _ => some node
  | _ => none

/-- The dials that the bootstrapper has left, at most. -/
def Bootstrap.left (numPeers : Nat) : Bootstrap P NodeId IpAddr → Nat
  | .cleared | .sampling _ => numPeers
  | .dialing peers | .connecting peers => peers.length
  | .ticking | .returned => 0

theorem sinceStop_append {h done : List (Event P IpAddr)} (hstop : stopped h = true) :
    sinceStop (h ++ done) = sinceStop h ++ done := by
  induction h with
  | nil => cases hstop
  | cons e rest ih =>
      cases e with
      | stop => rfl
      | _ => exact ih hstop

theorem sinceStop_clear {h : List (Event P IpAddr)} (hclear : stopped h = false) :
    sinceStop h = [] := by
  induction h with
  | nil => rfl
  | cons e rest ih =>
      cases e with
      | stop => cases hclear
      | _ => exact ih hclear

theorem sinceStop_stop {h : List (Event P IpAddr)} (hclear : stopped h = false) :
    sinceStop (h ++ [.stop]) = [] := by
  induction h with
  | nil => rfl
  | cons e rest ih =>
      cases e with
      | stop => cases hclear
      | _ => exact ih hclear

/-- What the tasks have left to do, with what they have done since the flag was set. -/
structure Winding (numPeers : Nat) (s : Tasks P NodeId IpAddr) : Prop where
  left : s.bootstrap.left numPeers ≤ numPeers
  begun : s.stop = true → ∀ e ∈ sinceStop s.history, e.begins = false
  reconnects : s.stop = true → ∃ node : Option P,
    (∀ n ∈ (sinceStop s.history).filterMap Event.reconnects?, some n = node) ∧
    (s.reconnect.node? = none ∨ s.reconnect.node? = node)
  bootstraps : s.stop = true →
    (sinceStop s.history).countP Event.bootstraps + s.bootstrap.left numPeers ≤ numPeers

/-- What a move may do once the flag is set. -/
theorem winding_of_move {done : List (Event P IpAddr)} (hw : Winding numPeers s)
    (hflag : stopped s.history = s.stop) (hhistory : s'.history = s.history ++ done)
    (hstop : s'.stop = s.stop) (hleft : s'.bootstrap.left numPeers ≤ numPeers)
    (hbegun : s.stop = true → ∀ e ∈ done, e.begins = false)
    (hreconnects : s.stop = true →
      (∀ n ∈ done.filterMap Event.reconnects?, some n = s.reconnect.node?) ∧
      (s'.reconnect.node? = none ∨ s'.reconnect.node? = s.reconnect.node?))
    (hbootstraps : s.stop = true → done.countP Event.bootstraps +
      s'.bootstrap.left numPeers ≤ s.bootstrap.left numPeers) : Winding numPeers s' := by
  -- the flag is set before the move, so its events come after
  have hsince : s.stop = true → sinceStop s'.history = sinceStop s.history ++ done := by
    intro hset
    rw [hhistory, sinceStop_append (hflag.trans hset)]
  refine ⟨hleft, fun hset => ?_, fun hset => ?_, fun hset => ?_⟩
  · rw [hstop] at hset
    rw [hsince hset]
    intro e he
    exact (List.mem_append.mp he).elim (hw.begun hset e) (hbegun hset e)
  · rw [hstop] at hset
    obtain ⟨node, hnode, hat⟩ := hw.reconnects hset
    obtain ⟨hdone, hnext⟩ := hreconnects hset
    rw [hsince hset, List.filterMap_append]
    refine ⟨node, fun n hn => ?_, ?_⟩
    · rcases List.mem_append.mp hn with hold | hnew
      · exact hnode n hold
      · have hn' := hdone n hnew
        rcases hat with hnone | hsame
        · rw [hnone] at hn'
          cases hn'
        · exact hn'.trans hsame
    · rcases hnext with hnone | hsame
      · exact Or.inl hnone
      · rwa [hsame]
  · rw [hstop] at hset
    rw [hsince hset, List.countP_append]
    have hcount := hw.bootstraps hset
    have hmove := hbootstraps hset
    omega

/-- With the flag set this task begins no turn, and stays with the node of its turn. -/
theorem reconnectStep_winds [DecidableEq P] (now : Now P IpAddr) (connected : List P)
    (r : Reconnect P IpAddr) :
    let out := reconnectStep now true connected r
    (∀ e ∈ out.2, e.begins = false ∧ e.bootstraps = false) ∧
      (∀ n ∈ out.2.filterMap Event.reconnects?, some n = r.node?) ∧
      (out.1.node? = none ∨ out.1.node? = r.node?) := by
  cases r with
  | nodes rest =>
      cases rest with
      | nil => simp [reconnectStep, Reconnect.node?]
      | cons node rest =>
          rw [reconnectStep]
          split <;> simp [Reconnect.node?, Event.begins, Event.bootstraps, Event.reconnects?]
  | dialing node sockaddrs addrs rest =>
      cases sockaddrs with
      | cons addr sockaddrs =>
          simp [reconnectStep, Reconnect.node?, Event.begins, Event.bootstraps,
            Event.reconnects?]
      | nil =>
          cases addrs with
          | nil => simp [reconnectStep, Reconnect.node?]
          | cons address addrs =>
              simp [reconnectStep, Reconnect.node?, Event.begins, Event.bootstraps,
                Event.reconnects?]
  | _ =>
      simp [reconnectStep, Reconnect.node?, Event.begins, Event.bootstraps, Event.reconnects?]

/-- The bootstrapper begins no round, and dials those that are left of its sample. -/
theorem bootstrapStep_winds [DecidableEq NodeId] (seeds : List String) (now : Now P IpAddr)
    (connected : List P) (b : Bootstrap P NodeId IpAddr) (stop : Bool)
    (hb : b.left numPeers ≤ numPeers) :
    let out := bootstrapStep c seeds numPeers now stop connected b
    out.1.left numPeers ≤ numPeers ∧ out.2.filterMap Event.reconnects? = [] ∧
      (stop = true → (∀ e ∈ out.2, e.begins = false) ∧
        out.2.countP Event.bootstraps + out.1.left numPeers ≤ b.left numPeers) := by
  cases b with
  | ticking =>
      cases stop <;> simp [bootstrapStep, Bootstrap.left, Event.reconnects?]
  | sampling ignore =>
      rw [bootstrapStep]
      cases hsampled : sampleNodeAddrs now.round c ignore seeds numPeers with
      | error e => simp [Bootstrap.left]
      | ok peers =>
          -- a sample that was under way is at most as large as a round may dial
          have hlength := (sampled_new seeds hsampled).1
          simp only [Bootstrap.left, List.filterMap_cons, Event.reconnects?]
          refine ⟨hlength, rfl, fun _ => ⟨by simp [Event.begins], ?_⟩⟩
          show 0 + peers.length ≤ numPeers
          omega
  | dialing rest =>
      cases rest with
      | nil => simp [bootstrapStep, Bootstrap.left]
      | cons peer rest =>
          have hlength : rest.length + 1 ≤ numPeers := hb
          refine ⟨?_, rfl, fun _ => ⟨by simp [bootstrapStep, Event.begins], ?_⟩⟩
          · show rest.length ≤ numPeers
            omega
          · show 1 + rest.length ≤ rest.length + 1
            omega
  | connecting rest => exact ⟨hb, rfl, fun _ => ⟨nofun, (Nat.zero_add _).le⟩⟩
  | _ => simp [bootstrapStep, Bootstrap.left, Event.begins, Event.reconnects?,
      Event.bootstraps]

/-- The other tasks neither begin turns nor dial for these two. -/
theorem neededStep_winds [DecidableEq P] (i : Nat) (now : Now P IpAddr) (connected : List P)
    (t : Needed P IpAddr) :
    ∀ e ∈ (neededStep i now connected t).2,
      e.begins = false ∧ e.bootstraps = false ∧ e.reconnects? = none := by
  cases t with
  | dialing node sockaddrs addresses =>
      cases sockaddrs with
      | cons addr sockaddrs =>
          rw [neededStep]
          split <;> simp [Event.begins, Event.bootstraps, Event.reconnects?]
      | nil =>
          cases addresses <;>
            simp [neededStep, Event.begins, Event.bootstraps, Event.reconnects?]
  | connecting node sockaddrs addresses =>
      rw [neededStep]
      split <;> simp
  | _ => simp [neededStep, Event.begins, Event.bootstraps, Event.reconnects?]

/-- A move that does no more than log around the two loops. -/
theorem winding_of_quiet {done : List (Event P IpAddr)} (hw : Winding numPeers s)
    (hflag : stopped s.history = s.stop) (hhistory : s'.history = s.history ++ done)
    (hstop : s'.stop = s.stop) (hreconnect : s'.reconnect = s.reconnect)
    (hbootstrap : s'.bootstrap = s.bootstrap)
    (hdone : ∀ e ∈ done, e.begins = false ∧ e.bootstraps = false ∧ e.reconnects? = none) :
    Winding numPeers s' := by
  refine winding_of_move hw hflag hhistory hstop ?_ (fun _ e he => (hdone e he).1)
    (fun _ => ⟨fun n hn => ?_, Or.inr (congrArg _ hreconnect)⟩) fun _ => ?_
  · rw [hbootstrap]
    exact hw.left
  · obtain ⟨e, he, hsome⟩ := List.mem_filterMap.mp hn
    rw [(hdone e he).2.2] at hsome
    cases hsome
  · have hcount : done.countP Event.bootstraps = 0 :=
      List.countP_eq_zero.mpr fun e he => by simp [(hdone e he).2.1]
    rw [hcount, hbootstrap, Nat.zero_add]

/-- **WINDING STEP**: a move leaves no more to do than there was. -/
theorem winding_step [DecidableEq P] [DecidableEq NodeId] {m : Move P IpAddr}
    (hs : Accounted c numPeers s) (hw : Winding numPeers s)
    (hstep : step c seeds numPeers s m = some s') : Winding numPeers s' := by
  cases m with
  | reconnect now =>
      obtain rfl := Option.some.inj hstep
      refine winding_of_move hw hs.stop rfl rfl hw.left (fun hset => ?_) (fun hset => ?_)
        fun hset => ?_
      all_goals
        rw [hset]
        obtain ⟨hquiet, hnode, hnext⟩ := reconnectStep_winds now s.connected s.reconnect
      · exact fun e he => (hquiet e he).1
      · exact ⟨hnode, hnext⟩
      · rw [List.countP_eq_zero.mpr fun e he => by simp [(hquiet e he).2], Nat.zero_add]
  | bootstrap now =>
      obtain rfl := Option.some.inj hstep
      obtain ⟨hleft, hnone, hwinds⟩ :=
        bootstrapStep_winds seeds now s.connected s.bootstrap s.stop hw.left
      refine winding_of_move hw hs.stop rfl rfl hleft (fun hset => (hwinds hset).1)
        (fun _ => ⟨fun n hn => ?_, Or.inr rfl⟩) fun hset => (hwinds hset).2
      rw [hnone] at hn
      exact absurd hn List.not_mem_nil
  | needed i now =>
      obtain ⟨t, -, rfl⟩ := Option.map_eq_some_iff.mp hstep
      exact winding_of_quiet hw hs.stop rfl rfl rfl rfl (neededStep_winds i now s.connected t)
  | connectionNeeded node addresses =>
      obtain rfl := Option.some.inj hstep
      exact winding_of_quiet hw hs.stop rfl rfl rfl rfl
        (by simp [Event.begins, Event.bootstraps, Event.reconnects?])
  | accept =>
      rw [step] at hstep
      split at hstep
      · cases hstep
      split at hstep
      · obtain rfl := Option.some.inj hstep
        exact ⟨hw.left, hw.begun, hw.reconnects, hw.bootstraps⟩
      · rename_i hclear
        obtain rfl := Option.some.inj hstep
        exact ⟨hw.left, fun hset => absurd hset hclear, fun hset => absurd hset hclear,
          fun hset => absurd hset hclear⟩
  | setupInbound =>
      rw [step] at hstep
      split at hstep
      · cases hstep
      · obtain rfl := Option.some.inj hstep
        exact winding_of_quiet hw hs.stop rfl rfl rfl rfl
          (by simp [Event.begins, Event.bootstraps, Event.reconnects?])
  | peers connected =>
      obtain rfl := Option.some.inj hstep
      exact winding_of_quiet hw hs.stop rfl rfl rfl rfl
        (by simp [Event.begins, Event.bootstraps, Event.reconnects?])
  | stop =>
      rw [step] at hstep
      split at hstep
      · cases hstep
      · rename_i hclear
        obtain rfl := Option.some.inj hstep
        -- nothing has been done yet, and the loops are where they were
        have hnil : sinceStop (s.history ++ [.stop]) = [] :=
          sinceStop_stop (hs.stop.trans (Bool.eq_false_iff.mpr hclear))
        refine ⟨hw.left, fun _ => ?_, fun _ => ⟨s.reconnect.node?, ?_, Or.inr rfl⟩, fun _ => ?_⟩
        · rw [hnil]
          exact nofun
        · rw [hnil]
          exact nofun
        · rw [hnil, List.countP_nil, Nat.zero_add]
          exact hw.left

/-- There is nothing to wind down at first. -/
theorem winding_spawned (dnsEnabled : Bool) :
    Winding numPeers (spawned dnsEnabled : Tasks P NodeId IpAddr) where
  left := by cases dnsEnabled <;> exact Nat.zero_le _
  begun := nofun
  reconnects := nofun
  bootstraps := nofun

/-- **WINDS DOWN**: in every run, once the flag is set no node, no round and no stream is
    begun with, the task that reconnects dials one node at most, and the bootstrapper
    `numPeers` peers at most. -/
theorem winds_down [DecidableEq P] [DecidableEq NodeId] (dnsEnabled : Bool)
    (hrun : Reach (step c seeds numPeers) anyStep (spawned dnsEnabled) s) :
    WindsDown numPeers s.history := by
  obtain ⟨hs, hw⟩ : Accounted c numPeers s ∧ Winding numPeers s :=
    reach_invariant (I := fun t => Accounted c numPeers t ∧ Winding numPeers t)
      (fun _ _ _ ht _ hstep => ⟨accounted_step ht.1 hstep, winding_step ht.1 ht.2 hstep⟩) hrun
      ⟨accounted_spawned dnsEnabled, winding_spawned dnsEnabled⟩
  by_cases hset : s.stop = true
  · obtain ⟨node, hnode, -⟩ := hw.reconnects hset
    exact ⟨hw.begun hset, ⟨node, hnode⟩, (Nat.le_add_right _ _).trans (hw.bootstraps hset)⟩
  · rw [Bool.not_eq_true] at hset
    have hnil : sinceStop s.history = [] := sinceStop_clear (hs.stop.trans hset)
    refine ⟨?_, ⟨none, ?_⟩, ?_⟩
    · rw [hnil]
      exact nofun
    · rw [hnil]
      exact nofun
    · rw [hnil, List.countP_nil]
      exact Nat.zero_le _

end Runs

/-- The one node of the turn is still dialed. -/
theorem winds_down_stoppedMidway : ∃ s : Tasks TestKey (List UInt8) Nat,
    Reach (step testCrates [] 2) anyStep (spawned false) s ∧
      (sinceStop s.history).filterMap Event.reconnects? = [.first] ∧
      WindsDown 2 s.history := by
  obtain ⟨s, hrun, hcheck⟩ := reach_of_check (spawned false : Tasks TestKey (List UInt8) Nat)
    (step testCrates [] 2) anyStep stoppedMidway
    (fun s => decide ((sinceStop s.history).filterMap Event.reconnects? = [.first]))
    (by decide)
  exact ⟨s, hrun, of_decide_eq_true hcheck, winds_down false hrun⟩

end PeerTasks
