import Mathlib.Data.Finset.Basic
import Scorer.NodeHostnameProofs

/-! # A round of the DNS bootstrapper

    `sample_node_addrs` goes through the seeds and through the records that each of
    them answers with, skips what fails, and stops at a limit.

    * `recordLoop` and `seedLoop` are the two loops; every lookup of a round has an
      outcome of its own;
    * `usablePeers` is what the records of the round come to, with no limit in sight;
    * `seedLoop_eq`: the loops take a front of it, and so the result is its first
      elements, or an error if there are none;
    * `answeredKeys`: nothing looks for a key that is in the list already, so a key
      comes as often as records bring it. -/

namespace DnsBootstrap

open NodeHostname

/-! ## Lookups -/

/-- An SRV record, as far as the bootstrapper looks at it. -/
structure SrvRecord where
  target : String
  port   : UInt16
  deriving DecidableEq

/-- A peer to connect to. -/
structure BootstrappedPeer (P IpAddr : Type) where
  pubkey : P
  addr   : IpAddr × UInt16
  deriving DecidableEq

/-- What a lookup under the timeout comes to. -/
inductive Lookup (α : Type) where
  | elapsed
  | failed (e : String)
  | found (answer : List α)

/-- The lookups of a round: those of the seeds by their place in the configuration,
    and those of their records by their place in the answer. -/
structure Round (IpAddr : Type) where
  srvLookup : (seed : Nat) → (queryName : String) → Lookup SrvRecord
  lookupIp  : (seed record : Nat) → (hostname : String) → Lookup IpAddr

variable {P NodeId IpAddr : Type} [DecidableEq NodeId]

variable (r : Round IpAddr) (c : Crates P NodeId) (ignore : Finset NodeId)

/-- `SrvQueryExecutor::query_srv`. -/
def querySrv (i : Nat) (seed : String) : Except DnsBootstrapError (List SrvRecord) :=
  let queryName := "_nodes._tcp." ++ seed ++ "."
  match r.srvLookup i queryName with
  | .elapsed => .error .timeout
  | .failed e => .error (.srvQueryFailed (queryName ++ ": " ++ e))
  | .found records => .ok records

/-- `SrvQueryExecutor::resolve_host`. -/
def resolveHost (i j : Nat) (hostname : String) : Except DnsBootstrapError IpAddr :=
  match r.lookupIp i j hostname with
  | .elapsed => .error .timeout
  | .failed e => .error (.hostResolutionFailed hostname e)
  | .found [] => .error (.hostResolutionFailed hostname "no A/AAAA records returned")
  | .found (ip :: _) => .ok ip

/-! ## The loops -/

/-- The loop over the records of seed `i`, at record `j`. -/
def recordLoop (numAddrs i : Nat) : (srvRecords : List SrvRecord) → (j : Nat) →
    (peers : List (BootstrappedPeer P IpAddr)) → List (BootstrappedPeer P IpAddr)
  | [], _, peers => peers
  | srv :: rest, j, peers =>
      if peers.length ≥ numAddrs then peers
      else match decodePubkeyFromHostname c srv.target with
        | .error _ => recordLoop numAddrs i rest (j + 1) peers
        | .ok (pubkey, nodeId) =>
            if nodeId ∈ ignore then recordLoop numAddrs i rest (j + 1) peers
            else match resolveHost r i j srv.target with
              | .error _ => recordLoop numAddrs i rest (j + 1) peers
              | .ok ip =>
                  recordLoop numAddrs i rest (j + 1) (peers ++ [⟨pubkey, ip, srv.port⟩])

/-- The loop over the seeds, at seed `i`. -/
def seedLoop (numAddrs : Nat) : (seeds : List String) → (i : Nat) →
    (peers : List (BootstrappedPeer P IpAddr)) → List (BootstrappedPeer P IpAddr)
  | [], _, peers => peers
  | seed :: rest, i, peers =>
      if peers.length ≥ numAddrs then peers
      else match querySrv r i seed with
        | .error _ => seedLoop numAddrs rest (i + 1) peers
        | .ok srvRecords =>
            if srvRecords.isEmpty then seedLoop numAddrs rest (i + 1) peers
            else seedLoop numAddrs rest (i + 1)
              (recordLoop r c ignore numAddrs i srvRecords 0 peers)

/-- `DnsBootstrapper::sample_node_addrs`, with the seeds of its configuration. -/
def sampleNodeAddrs (seeds : List String) (numAddrs : Nat) :
    Except DnsBootstrapError (List (BootstrappedPeer P IpAddr)) :=
  let peers := seedLoop r c ignore numAddrs seeds 0 []
  if peers.isEmpty then .error (.srvQueryFailed "no peers discovered from any DNS seed")
  else .ok peers

/-! ## What a round has to offer -/

/-- The records of the seed at place `i`, each with the two places; none if its query
    fails. -/
def answersOf (i : Nat) (seed : String) : List (Nat × Nat × SrvRecord) :=
  match querySrv r i seed with
  | .error _ => []
  | .ok srvRecords => srvRecords.zipIdx.map fun a => (i, a.2, a.1)

/-- The records of the round, from the seed at place `i` on. -/
def answers : (seeds : List String) → (i : Nat) → List (Nat × Nat × SrvRecord)
  | [], _ => []
  | seed :: rest, i => answersOf r i seed ++ answers rest (i + 1)

/-- The peer of a record whose target is the hostname of a key that is not ignored and
    resolves. -/
def usable (i j : Nat) (srv : SrvRecord) : Option (BootstrappedPeer P IpAddr) :=
  match decodePubkeyFromHostname c srv.target, resolveHost r i j srv.target with
  | .ok (pubkey, nodeId), .ok ip =>
      if nodeId ∈ ignore then none else some ⟨pubkey, ip, srv.port⟩
  | _, _ => none

/-- The peers of these records, in their order. -/
def peersOf (records : List (Nat × Nat × SrvRecord)) : List (BootstrappedPeer P IpAddr) :=
  records.filterMap fun a => usable r c ignore a.1 a.2.1 a.2.2

/-- The peers of the round, in the order of the seeds and of their records. -/
def usablePeers (seeds : List String) : List (BootstrappedPeer P IpAddr) :=
  peersOf r c ignore (answers r seeds 0)

/-- The keys that the records of the round hold, ignored and unreachable ones too. -/
def answeredKeys (seeds : List String) : List P :=
  (answers r seeds 0).filterMap fun a =>
    (decodePubkeyFromHostname c a.2.2.target).toOption.map Prod.fst

variable {r c ignore} {seeds : List String} {numAddrs : Nat}
  {peers : List (BootstrappedPeer P IpAddr)}

/-! ## The loops take the first of them -/

/-- Filling up with `xs` and then with `ys` is filling up with both. -/
theorem fill_append {α : Type} (n : Nat) (front xs ys : List α) :
    front ++ xs.take (n - front.length) ++
        ys.take (n - (front ++ xs.take (n - front.length)).length)
      = front ++ (xs ++ ys).take (n - front.length) := by
  have hroom : n - (front ++ xs.take (n - front.length)).length
      = n - front.length - xs.length := by
    rw [List.length_append, List.length_take]
    omega
  rw [hroom, List.append_assoc, List.take_append]

theorem fill_nil {α : Type} (n : Nat) (front : List α) :
    front = front ++ ([] : List α).take n := by
  rw [List.take_nil, List.append_nil]

/-- With enough peers the rest of the records is not looked at. -/
theorem recordLoop_full {i j : Nat} (hfull : numAddrs ≤ peers.length)
    (srvRecords : List SrvRecord) :
    recordLoop r c ignore numAddrs i srvRecords j peers = peers := by
  cases srvRecords with
  | nil => rfl
  | cons srv rest => rw [recordLoop, if_pos hfull]

theorem seedLoop_full {i : Nat} (hfull : numAddrs ≤ peers.length) (seeds : List String) :
    seedLoop r c ignore numAddrs seeds i peers = peers := by
  cases seeds with
  | nil => rfl
  | cons seed rest => rw [seedLoop, if_pos hfull]

/-- A record makes one peer or none. -/
theorem peersOf_singleton (i j : Nat) (srv : SrvRecord) :
    peersOf r c ignore [(i, j, srv)] = (usable r c ignore i j srv).toList := by
  rw [peersOf, List.filterMap_cons]
  cases usable r c ignore i j srv with
  | none => rfl
  | some peer => rfl

/-- A record fills the list up with its peer, if it has one. -/
theorem recordLoop_cons (i j : Nat) (srv : SrvRecord) (rest : List SrvRecord) :
    recordLoop r c ignore numAddrs i (srv :: rest) j peers =
      recordLoop r c ignore numAddrs i rest (j + 1)
        (peers ++ (peersOf r c ignore [(i, j, srv)]).take (numAddrs - peers.length)) := by
  by_cases hfull : numAddrs ≤ peers.length
  · rw [Nat.sub_eq_zero_of_le hfull, List.take_zero, List.append_nil, recordLoop_full hfull,
      recordLoop_full hfull]
  obtain ⟨room, hroom⟩ : ∃ room, numAddrs - peers.length = room + 1 :=
    ⟨numAddrs - peers.length - 1, by omega⟩
  rw [recordLoop, if_neg hfull, hroom, peersOf_singleton, usable]
  cases decodePubkeyFromHostname c srv.target with
  | error e => exact congrArg _ (List.append_nil peers).symm
  | ok key =>
      obtain ⟨pubkey, nodeId⟩ := key
      by_cases hignore : nodeId ∈ ignore
      · cases resolveHost r i j srv.target with
        | error e => simp [hignore]
        | ok ip => simp [hignore]
      · cases resolveHost r i j srv.target with
        | error e => simp [hignore]
        | ok ip => simp [hignore]

theorem peersOf_append (records records' : List (Nat × Nat × SrvRecord)) :
    peersOf r c ignore (records ++ records')
      = peersOf r c ignore records ++ peersOf r c ignore records' :=
  List.filterMap_append

/-- The loop over the records fills the list up with their peers. -/
theorem recordLoop_eq (i : Nat) (srvRecords : List SrvRecord) : ∀ (j : Nat)
    (peers : List (BootstrappedPeer P IpAddr)),
    recordLoop r c ignore numAddrs i srvRecords j peers = peers ++
      (peersOf r c ignore ((srvRecords.zipIdx j).map fun a => (i, a.2, a.1))).take
        (numAddrs - peers.length) := by
  induction srvRecords with
  | nil => exact fun _ peers => fill_nil _ peers
  | cons srv rest ih =>
      intro j peers
      rw [recordLoop_cons, ih, fill_append, ← peersOf_append]
      rfl

/-- A seed fills the list up with the peers of its answer. -/
theorem seedLoop_cons (i : Nat) (seed : String) (rest : List String) :
    seedLoop r c ignore numAddrs (seed :: rest) i peers =
      seedLoop r c ignore numAddrs rest (i + 1)
        (peers ++ (peersOf r c ignore (answersOf r i seed)).take (numAddrs - peers.length)) := by
  by_cases hfull : numAddrs ≤ peers.length
  · rw [Nat.sub_eq_zero_of_le hfull, List.take_zero, List.append_nil, seedLoop_full hfull,
      seedLoop_full hfull]
  rw [seedLoop, if_neg hfull, answersOf]
  cases querySrv r i seed with
  | error e => exact congrArg _ (fill_nil _ peers)
  | ok srvRecords =>
      cases srvRecords with
      | nil => exact congrArg _ (fill_nil _ peers)
      | cons srv more => exact congrArg _ (recordLoop_eq i (srv :: more) 0 peers)

/-- **FRONT**: the loops fill the list up with the peers of the round. -/
theorem seedLoop_eq (seeds : List String) : ∀ (i : Nat)
    (peers : List (BootstrappedPeer P IpAddr)),
    seedLoop r c ignore numAddrs seeds i peers =
      peers ++ (peersOf r c ignore (answers r seeds i)).take (numAddrs - peers.length) := by
  induction seeds with
  | nil => exact fun _ peers => fill_nil _ peers
  | cons seed rest ih =>
      intro i peers
      rw [seedLoop_cons, ih, fill_append, ← peersOf_append]
      rfl

/-- The result of a round: a front of its peers, or an error if that is empty. -/
theorem sampleNodeAddrs_eq : sampleNodeAddrs r c ignore seeds numAddrs =
    if ((usablePeers r c ignore seeds).take numAddrs).isEmpty then
      .error (.srvQueryFailed "no peers discovered from any DNS seed")
    else .ok ((usablePeers r c ignore seeds).take numAddrs) := by
  rw [sampleNodeAddrs, seedLoop_eq]
  rfl

/-- Each record of an answer is among the answers, under its two numbers. -/
theorem mem_answers {j : Nat} {seed : String} {srvRecords : List SrvRecord} {srv : SrvRecord}
    (hsrv : srvRecords[j]? = some srv) : ∀ {seeds : List String} {k i : Nat},
      seeds[i]? = some seed → querySrv r (k + i) seed = .ok srvRecords →
      (k + i, j, srv) ∈ answers r seeds k := by
  intro seeds
  induction seeds with
  | nil => exact fun hseed _ => nomatch hseed
  | cons head rest ih =>
      intro k i hseed hquery
      rw [answers, List.mem_append]
      cases i with
      | zero =>
          obtain rfl := Option.some.inj hseed
          left
          rw [answersOf, ← Nat.add_zero k, hquery]
          exact List.mem_map.mpr ⟨(srv, j), List.mk_mem_zipIdx_iff_getElem?.mpr hsrv, rfl⟩
      | succ i =>
          right
          rw [Nat.add_comm i 1, ← Nat.add_assoc] at hquery ⊢
          exact ih hseed hquery

/-- Every record of a seed that answers counts, whatever the others come to. -/
theorem mem_usablePeers {i j : Nat} {seed : String} {srvRecords : List SrvRecord}
    {srv : SrvRecord} {peer : BootstrappedPeer P IpAddr} (hseed : seeds[i]? = some seed)
    (hquery : querySrv r i seed = .ok srvRecords) (hsrv : srvRecords[j]? = some srv)
    (husable : usable r c ignore i j srv = some peer) :
    peer ∈ usablePeers r c ignore seeds := by
  have hmem : (0 + i, j, srv) ∈ answers r seeds 0 :=
    mem_answers hsrv hseed (by rwa [Nat.zero_add])
  rw [Nat.zero_add] at hmem
  exact List.mem_filterMap.mpr ⟨_, hmem, husable⟩

/-- **FIRST USABLE**: a round returns the first peers that its records come to, and
    fails exactly if there are none; no record is lost to another one's failure. -/
theorem sample_first_usable (r : Round IpAddr) (c : Crates P NodeId) (ignore : Finset NodeId)
    (seeds : List String) (numAddrs : Nat) (hpos : 0 < numAddrs) :
    (usablePeers r c ignore seeds ≠ [] → sampleNodeAddrs r c ignore seeds numAddrs =
      .ok ((usablePeers r c ignore seeds).take numAddrs)) ∧
    ((∃ e, sampleNodeAddrs r c ignore seeds numAddrs = .error e) ↔
      usablePeers r c ignore seeds = []) ∧
    ∀ i j seed srvRecords srv peer, seeds[i]? = some seed →
      querySrv r i seed = .ok srvRecords → srvRecords[j]? = some srv →
      usable r c ignore i j srv = some peer → peer ∈ usablePeers r c ignore seeds := by
  -- a round is the front of the usable peers, or an error if that is empty
  rw [sampleNodeAddrs_eq]
  refine ⟨fun hne => ?_, ⟨?_, fun hnil => ?_⟩,
    fun _ _ _ _ _ _ hseed hquery hsrv husable => mem_usablePeers hseed hquery hsrv husable⟩
  · rw [if_neg]
    rw [List.isEmpty_iff, List.take_eq_nil_iff]
    rintro (hzero | hnil)
    · omega
    · exact hne hnil
  · rintro ⟨e, herror⟩
    split at herror
    · rename_i hempty
      rw [List.isEmpty_iff, List.take_eq_nil_iff] at hempty
      exact hempty.resolve_left (by omega)
    · cases herror
  · rw [hnil, List.take_nil]
    exact ⟨_, rfl⟩

/-! ## Keys -/

/-- A usable record has a name that decodes to a key outside the ignored ones. -/
theorem usable_key {i j : Nat} {srv : SrvRecord} {peer : BootstrappedPeer P IpAddr}
    (h : usable r c ignore i j srv = some peer) : c.fromPubkey peer.pubkey ∉ ignore ∧
      (decodePubkeyFromHostname c srv.target).toOption.map Prod.fst = some peer.pubkey := by
  rw [usable] at h
  split at h
  · rename_i pubkey nodeId ip hdecode hresolve
    split at h
    · cases h
    rename_i hignore
    obtain rfl := Option.some.inj h
    obtain ⟨-, -, -, -, -, -, hid⟩ := steps_of_decode hdecode
    rw [hdecode]
    exact ⟨hid ▸ hignore, rfl⟩
  · cases h

/-- Filtering further and naming what is left gives a sublist of the names. -/
theorem map_filterMap_sublist {α β γ : Type} {f : α → Option β} {g : β → γ} {k : α → Option γ}
    (h : ∀ a b, f a = some b → k a = some (g b)) (l : List α) :
    ((l.filterMap f).map g).Sublist (l.filterMap k) := by
  induction l with
  | nil => exact .slnil
  | cons a l ih =>
      cases hf : f a with
      | none =>
          rw [List.filterMap_cons_none hf]
          refine ih.trans ?_
          cases hk : k a with
          | none => rw [List.filterMap_cons_none hk]
          | some x =>
              rw [List.filterMap_cons_some hk]
              exact List.sublist_cons_self _ _
      | some b =>
          rw [List.filterMap_cons_some hf, List.filterMap_cons_some (h a b hf), List.map_cons]
          exact ih.cons_cons _

/-- **NEW NODES**: no ignored node is returned, and the keys are keys of records, each
    record at most once and in their order. -/
theorem sample_new_nodes (r : Round IpAddr) (c : Crates P NodeId) (ignore : Finset NodeId)
    (seeds : List String) (numAddrs : Nat) (peers : List (BootstrappedPeer P IpAddr))
    (h : sampleNodeAddrs r c ignore seeds numAddrs = .ok peers) :
    (∀ peer ∈ peers, c.fromPubkey peer.pubkey ∉ ignore) ∧
    (peers.map (·.pubkey)).Sublist (answeredKeys r c seeds) ∧
    ((answeredKeys r c seeds).Nodup → (peers.map (·.pubkey)).Nodup) := by
  have hpeers : peers = (usablePeers r c ignore seeds).take numAddrs := by
    rw [sampleNodeAddrs_eq] at h
    split at h
    · cases h
    · exact (Except.ok.inj h).symm
  have hkeys : (peers.map (·.pubkey)).Sublist (answeredKeys r c seeds) := by
    rw [hpeers]
    exact ((List.take_sublist _ _).map _).trans
      (map_filterMap_sublist (fun _ _ husable => (usable_key husable).2) _)
  refine ⟨fun peer hpeer => ?_, hkeys, fun hnodup => hnodup.sublist hkeys⟩
  rw [hpeers] at hpeer
  obtain ⟨a, -, husable⟩ := List.mem_filterMap.mp (List.mem_of_mem_take hpeer)
  exact (usable_key husable).1

/-! ## Two seeds with one node -/

/-- The seeds of the default configuration. -/
def twoSeeds : List String := ["nodes.lightning.wiki", "lseed.bitcoinstats.com"]

/-- The hostname of one node under each of them. -/
def sharedHost (i : Nat) : String :=
  lnText .bech32 (testBytes .first) ++ "." ++
    if i = 0 then "nodes.lightning.wiki." else "lseed.bitcoinstats.com."

/-- Each seed answers with the node, at a port of its own. -/
def sharedNode : Round UInt32 where
  srvLookup := fun i _ => .found [⟨sharedHost i, if i = 0 then 9735 else 9736⟩]
  lookupIp := fun _ _ _ => .found [0xcb007107]

/-- Either seed answers with one record. -/
theorem sharedNode_answers : answers sharedNode twoSeeds 0 =
    [(0, 0, ⟨sharedHost 0, 9735⟩)] ++ [(1, 0, ⟨sharedHost 1, 9736⟩)] := by
  simp [answers, answersOf, querySrv, sharedNode, twoSeeds]

theorem sharedNode_usable : usablePeers sharedNode testCrates ∅ twoSeeds =
    [⟨.first, 0xcb007107, 9735⟩, ⟨.first, 0xcb007107, 9736⟩] := by
  have hpeer (i : Nat) (port : UInt16) : usable sharedNode testCrates ∅ i 0
      ⟨sharedHost i, port⟩ = some ⟨.first, 0xcb007107, port⟩ := by
    have hdecode : decodePubkeyFromHostname testCrates (sharedHost i) =
        .ok (.first, testCrates.fromPubkey .first) :=
      decode_hostname testCrates_specified .first _
    have hresolve : resolveHost sharedNode i 0 (sharedHost i) = .ok 0xcb007107 := rfl
    rw [usable, hdecode, hresolve]
    exact if_neg (Finset.notMem_empty _)
  rw [usablePeers, sharedNode_answers, peersOf_append, peersOf_singleton, peersOf_singleton,
    hpeer, hpeer]
  rfl

/-- The node comes twice. -/
theorem sample_repeats_key : ∃ peers,
    sampleNodeAddrs sharedNode testCrates ∅ twoSeeds 2 = .ok peers ∧
      ¬ (peers.map (·.pubkey)).Nodup := by
  refine ⟨[⟨.first, 0xcb007107, 9735⟩, ⟨.first, 0xcb007107, 9736⟩], ?_, by decide⟩
  rw [sampleNodeAddrs_eq, sharedNode_usable]
  rfl

/-- The first of the two, when one is asked for. -/
theorem sample_first_usable_one : sampleNodeAddrs sharedNode testCrates ∅ twoSeeds 1 =
    .ok ((usablePeers sharedNode testCrates ∅ twoSeeds).take 1) := by
  apply (sample_first_usable sharedNode testCrates ∅ twoSeeds 1 (by decide)).1
  rw [sharedNode_usable]
  exact List.cons_ne_nil _ _

/-- One of the two is a list of new nodes. -/
theorem sample_new_nodes_one : ([.first] : List TestKey).Sublist
    (answeredKeys sharedNode testCrates twoSeeds) := by
  have hsample : sampleNodeAddrs sharedNode testCrates ∅ twoSeeds 1 =
      .ok [⟨.first, 0xcb007107, 9735⟩] := by
    rw [sampleNodeAddrs_eq, sharedNode_usable]
    rfl
  exact (sample_new_nodes sharedNode testCrates ∅ twoSeeds 1 _ hsample).2.1

end DnsBootstrap
