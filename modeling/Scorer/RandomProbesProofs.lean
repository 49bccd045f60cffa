import Scorer.HexBytesProofs
import Scorer.PrepareProbeProofs
import Scorer.RecipientSampleProofs

/-! # The random part of an interval

    After the peer list an interval probes recipients that it samples from the graph,
    all with one amount and whatever the attempts before came to.

    * `Paced`: every attempt is completed, and slept after, before the next event;
    * `interval_random`: the attempts of the random part are one for each recipient;
    * `interval_schedule`: an interval over any graph: distinct recipients other than the
      node, as many as asked for and there are, each probed once, and never more attempts
      than the configuration asks for. -/

namespace RandomProbes

open HexBytes PeerClimb ProbingLoop RecipientSample ReservoirSample SectionDefault

variable {φ N P R : Type}

/-! ## What an interval should do -/

/-- The attempts of the random part, with the recipients. -/
def randomAttempts (events : List (LoopEvent φ)) : List (String × Attempt φ) :=
  events.filterMap fun
    | .completed .randomGraph destination amount completion =>
        some (destination, amount, completion)
    | _ => none

/-- Attempts do not overlap, and after each one the task sleeps. -/
inductive Paced (probeDelay peerDelay : UInt64) : List (LoopEvent φ) → Prop where
  | nil : Paced probeDelay peerDelay []
  | attempt (mode : ProbeMode) (destination : String) (amountMsat : UInt64)
      (completion : Completion φ) {rest : List (LoopEvent φ)}
      (h : Paced probeDelay peerDelay rest) : Paced probeDelay peerDelay
        (.started mode destination amountMsat ::
          .completed mode destination amountMsat completion :: .slept probeDelay :: rest)
  | pause {rest : List (LoopEvent φ)} (h : Paced probeDelay peerDelay rest) :
      Paced probeDelay peerDelay (.slept peerDelay :: rest)
  | sampled (recipients : List String) {rest : List (LoopEvent φ)}
      (h : Paced probeDelay peerDelay rest) :
      Paced probeDelay peerDelay (.sampled recipients :: rest)

/-- The graph at the time of an interval: its nodes in the order of the pass, and what
    the code reads of each. -/
structure Graph (N P : Type) where
  nodes     : List N
  asPubkey  : N → Option P
  ourNodeId : N

/-- The events of an interval that samples its recipients from the graph. -/
structure GraphInterval [DecidableEq N] {pointerWidth : Nat}
    (allocator : Allocator pointerWidth) (itemSize : Nat) (genRange : GenRange R)
    (serialize : P → List UInt8) (probeConfig : ProbingConfig) (graph : Graph N P)
    (events : List (LoopEvent φ)) : Prop where
  trace : Trace (intervalPass probeConfig) events
  sampled : ∀ recipients, .sampled recipients ∈ events → ∃ rng keys,
    randomRecipients allocator itemSize genRange probeConfig
      (eligibleNodes graph.asPubkey graph.ourNodeId graph.nodes) rng = some keys ∧
    recipients = keys.map fun key => hexStr (serialize key)

/-- A graph has each node once, and two nodes do not have the same key. -/
structure WellFormed (graph : Graph N P) : Prop where
  nodup : graph.nodes.Nodup
  keys : ∀ m n key, graph.asPubkey m = some key → graph.asPubkey n = some key → m = n

variable {probeConfig : ProbingConfig} {events : List (LoopEvent φ)} {next : ProbeTask φ}

/-! ## Pacing -/

/-- The random probes have the delay between them. -/
theorem paced_recipients (probeDelay peerDelay amount : UInt64) (recipients : List String)
    (h : Trace (probeRecipients probeDelay amount recipients) events) :
    Paced probeDelay peerDelay events := by
  induction recipients generalizing events with
  | nil =>
      obtain rfl := trace_done.mp h
      exact .nil
  | cons recipient recipients ih =>
      obtain ⟨completion, rest, hslept, rfl⟩ := trace_attempt.mp h
      obtain ⟨after, hafter, rfl⟩ := trace_sleep.mp hslept
      exact .attempt _ _ _ _ (ih hafter)

theorem paced_random (h : Trace (randomPass probeConfig) events) :
    Paced probeConfig.probeDelaySec probeConfig.peerDelaySec events := by
  rw [randomPass] at h
  split at h
  · cases h with
    | sample _ recipients hrest => exact .sampled _ (paced_recipients _ _ _ _ hrest)
  · obtain rfl := trace_done.mp h
    exact .nil

theorem paced_climb {probeDelay peerDelay : UInt64} {peerPubkey : String}
    (attempts : List (Attempt φ)) {rest : List (LoopEvent φ)}
    (hrest : Paced probeDelay peerDelay rest) :
    Paced probeDelay peerDelay
      (attempts.flatMap (attemptEvents probeDelay peerPubkey) ++ rest) := by
  induction attempts with
  | nil => exact hrest
  | cons attempt attempts ih => exact .attempt _ _ _ _ ih

/-- **THE OUTER LOOP** keeps the pace of what comes after it. -/
theorem paced_peers {probeDelay peerDelay : UInt64} {sorted : List UInt64}
    (hnext : ∀ events, Trace next events → Paced probeDelay peerDelay events)
    (peerCount : Nat) (peers : List String) (peerIdx : Nat)
    (h : Trace (probePeers probeDelay peerDelay sorted next peerCount peerIdx peers) events) :
    Paced probeDelay peerDelay events := by
  induction peers generalizing events peerIdx with
  | nil => exact hnext _ h
  | cons peer peers ih =>
      rw [probePeers] at h
      simp only at h
      split at h
      · exact ih _ h
      · obtain ⟨attempts, rest, -, hrest, rfl⟩ := trace_probeAmounts.mp h
        refine paced_climb attempts ?_
        split at hrest
        · obtain ⟨after, hafter, rfl⟩ := trace_sleep.mp hrest
          exact .pause (ih _ hafter)
        · exact ih _ hrest

theorem interval_paced (h : Trace (intervalPass probeConfig) events) :
    Paced probeConfig.probeDelaySec probeConfig.peerDelaySec events := by
  rw [intervalPass] at h
  split at h
  · exact paced_peers (fun _ => paced_random) _ _ _ h
  · exact paced_random h

/-! ## The two parts of an interval -/

theorem randomAttempts_append (earlier later : List (LoopEvent φ)) :
    randomAttempts (earlier ++ later) = randomAttempts earlier ++ randomAttempts later :=
  List.filterMap_append

/-- The climbs of a peer have nothing of the random part. -/
theorem climb_no_random (probeDelay : UInt64) (peerPubkey : String)
    (attempts : List (Attempt φ)) :
    randomAttempts (attempts.flatMap (attemptEvents probeDelay peerPubkey)) = [] := by
  induction attempts with
  | nil => rfl
  | cons attempt attempts ih =>
      rw [List.flatMap_cons, randomAttempts_append, ih]
      rfl

/-- The part for the peers, and then what comes after it. -/
theorem split_peers {probeDelay peerDelay : UInt64} {sorted : List UInt64} (peerCount : Nat)
    (peers : List String) (peerIdx : Nat)
    (h : Trace (probePeers probeDelay peerDelay sorted next peerCount peerIdx peers) events) :
    ∃ before rest, events = before ++ rest ∧ Trace next rest ∧ randomAttempts before = [] := by
  induction peers generalizing events peerIdx with
  | nil => exact ⟨[], events, rfl, h, rfl⟩
  | cons peer peers ih =>
      rw [probePeers] at h
      simp only at h
      split at h
      · exact ih _ h
      · rename_i peerPubkey _
        obtain ⟨attempts, after, -, hafter, rfl⟩ := trace_probeAmounts.mp h
        have hclimb := climb_no_random probeDelay peerPubkey attempts
        -- the pause between two entries, or none
        obtain ⟨pause, more, rfl, hmore, hpause⟩ : ∃ pause more, after = pause ++ more ∧
            Trace (probePeers probeDelay peerDelay sorted next peerCount (peerIdx + 1) peers)
              more ∧ randomAttempts pause = [] := by
          split at hafter
          · obtain ⟨more, hmore, rfl⟩ := trace_sleep.mp hafter
            exact ⟨[.slept peerDelay], more, rfl, hmore, rfl⟩
          · exact ⟨[], after, rfl, hafter, rfl⟩
        obtain ⟨before, rest, rfl, hrest, hbefore⟩ := ih _ hmore
        refine ⟨attempts.flatMap (attemptEvents probeDelay peerPubkey) ++ (pause ++ before), rest,
          by simp only [List.append_assoc], hrest, ?_⟩
        rw [randomAttempts_append, randomAttempts_append, hclimb, hpause, hbefore]
        rfl

/-- The attempts for the recipients: one each, in order, whatever they come to. -/
theorem recipients_once (probeDelay amount : UInt64) (recipients : List String)
    (h : Trace (probeRecipients probeDelay amount recipients) events) :
    (randomAttempts events).map (fun a => (a.1, a.2.1)) =
      recipients.map fun recipient => (recipient, amount) := by
  induction recipients generalizing events with
  | nil =>
      obtain rfl := trace_done.mp h
      rfl
  | cons recipient recipients ih =>
      obtain ⟨completion, rest, hslept, rfl⟩ := trace_attempt.mp h
      obtain ⟨after, hafter, rfl⟩ := trace_sleep.mp hslept
      have hrest := ih hafter
      exact congrArg ((recipient, amount) :: ·) hrest

/-- **RANDOM PART**: if the mode is on, one sample of recipients and one attempt for each
    of them; nothing of the kind otherwise. -/
theorem interval_random (h : Trace (intervalPass probeConfig) events) :
    ((computeModes probeConfig).randomGraph = false ∧ randomAttempts events = []) ∨
      ((computeModes probeConfig).randomGraph = true ∧ ∃ recipients,
        .sampled recipients ∈ events ∧
        (randomAttempts events).map (fun a => (a.1, a.2.1)) =
          recipients.map fun recipient => (recipient, probeConfig.randomMinAmountMsat)) := by
  obtain ⟨before, rest, rfl, hrest, hnone⟩ : ∃ before rest, events = before ++ rest ∧
      Trace (randomPass probeConfig) rest ∧ randomAttempts before = [] := by
    rw [intervalPass] at h
    split at h
    · exact split_peers _ _ _ h
    · exact ⟨[], events, rfl, h, rfl⟩
  rw [randomPass] at hrest
  split at hrest
  · rename_i hmode
    cases hrest with
    | sample _ recipients hafter =>
        refine Or.inr ⟨hmode, recipients, by simp, ?_⟩
        have honce := recipients_once _ _ recipients hafter
        rw [randomAttempts_append, hnone]
        exact honce
  · rename_i hmode
    obtain rfl := trace_done.mp hrest
    rw [List.append_nil]
    exact Or.inl ⟨Bool.eq_false_iff.mpr hmode, hnone⟩

/-! ## The number of attempts -/

/-- Each attempt is one of the two kinds. -/
theorem starts_split {task : ProbeTask φ} (h : Trace task events) :
    starts events = (peerAttempts events).length + (randomAttempts events).length := by
  induction h with
  | done => rfl
  | @attempt mode destination amountMsat _ events completion _ ih =>
      have hstarts : starts (.started mode destination amountMsat ::
          .completed mode destination amountMsat completion :: events) = starts events + 1 := by
        simp [starts]
      rw [hstarts, ih]
      cases mode with
      | whitelist =>
          show _ = ((destination, amountMsat, completion) :: peerAttempts events).length +
            (randomAttempts events).length
          rw [List.length_cons]
          omega
      | randomGraph => rfl
  | sleep _ _ ih => exact ih
  | sample _ _ _ ih => exact ih

theorem joined_length {amounts : List UInt64} {keys : List String}
    {climbs : List (String × List (Attempt φ))} (h : Climbs amounts keys climbs) :
    (joined climbs).length ≤ keys.length * amounts.length := by
  induction climbs generalizing keys with
  | nil => exact Nat.zero_le _
  | cons entry climbs ih =>
      obtain rfl := h.keys
      have hclimb : entry.2.length ≤ amounts.length := by
        have hbegins := (h.climb entry List.mem_cons_self).begins.length_le
        rwa [List.length_map] at hbegins
      have hrest := ih ⟨rfl, fun e he => h.climb e (List.mem_cons_of_mem _ he)⟩
      have hjoined : (joined (entry :: climbs)).length =
          entry.2.length + (joined climbs).length := by
        rw [joined, List.flatMap_cons, List.length_append, List.length_map]
        rfl
      rw [hjoined, List.map_cons, List.length_cons, Nat.succ_mul]
      omega

/-- At most one attempt for each entry with a key and each amount. -/
theorem peerAttempts_length (h : Trace (intervalPass probeConfig) events) :
    (peerAttempts events).length ≤
      (probeConfig.peers.filterMap extractPeerPubkey).length * probeConfig.amountMsats.length := by
  obtain ⟨climbs, hclimbs, hattempts⟩ :=
    (interval_attempts_iff probeConfig (peerAttempts events)).mp ⟨events, h, rfl⟩
  rw [hattempts]
  refine (joined_length hclimbs).trans (Nat.le_of_eq ?_)
  rw [sortedAmounts, List.length_mergeSort]

/-! ## The recipients -/

section Recipients

variable [DecidableEq N] {pointerWidth itemSize : Nat} {allocator : Allocator pointerWidth}
  {genRange : GenRange R} {rng : R} {graph : Graph N P} {keys : List P}

theorem eligible_nodup (hgraph : WellFormed graph) :
    (eligibleNodes graph.asPubkey graph.ourNodeId graph.nodes).Nodup := by
  refine hgraph.nodup.filterMap fun m n key hm hn => ?_
  rw [Option.mem_def] at hm hn
  split at hm
  · cases hm
  split at hn
  · cases hn
  exact hgraph.keys m n key hm hn

/-- An eligible key is that of another node of the graph. -/
theorem mem_eligible {key : P}
    (h : key ∈ eligibleNodes graph.asPubkey graph.ourNodeId graph.nodes) :
    ∃ n ∈ graph.nodes, n ≠ graph.ourNodeId ∧ graph.asPubkey n = some key := by
  obtain ⟨n, hn, hkey⟩ := List.mem_filterMap.mp h
  split at hkey
  · cases hkey
  · rename_i hne
    exact ⟨n, hn, hne, hkey⟩

/-- A selection that completes has distinct nodes of the graph, as many as requested or
    as there are. -/
theorem selected (hgraph : WellFormed graph)
    (hkeys : randomRecipients allocator itemSize genRange probeConfig
      (eligibleNodes graph.asPubkey graph.ourNodeId graph.nodes) rng = some keys) :
    keys.Nodup ∧
      keys.length = min (requestedCount pointerWidth probeConfig)
        (eligibleNodes graph.asPubkey graph.ourNodeId graph.nodes).length ∧
      ∀ key ∈ keys, ∃ n ∈ graph.nodes, n ≠ graph.ourNodeId ∧ graph.asPubkey n = some key := by
  have hcompletes : Completes allocator itemSize genRange probeConfig
      (eligibleNodes graph.asPubkey graph.ourNodeId graph.nodes) rng :=
    completes_of_granted (granted_of_returns hkeys)
  obtain ⟨recipients, positions, hsome, hlength, hnodup, hget⟩ := hcompletes
  obtain rfl := Option.some.inj (hkeys.symm.trans hsome)
  refine ⟨?_, hlength, fun key hkey => ?_⟩
  · rw [hget]
    refine hnodup.map fun i j hij => ?_
    exact List.nodup_iff_injective_get.mp (eligible_nodup hgraph) hij
  · rw [hget] at hkey
    obtain ⟨i, -, rfl⟩ := List.mem_map.mp hkey
    exact mem_eligible (List.get_mem _ _)

/-- **INTERVAL SCHEDULE**: for every configuration, every graph, every answer of the
    generator and every completion, an interval probes in its random part distinct nodes
    of the graph other than this one, as many as requested and available, each once, in
    the order of the sample and with the one amount; its attempts are one at a time with
    the delay after each; and there are no more of them than an amount for each entry
    with a key and one for each recipient. -/
theorem interval_schedule {serialize : P → List UInt8} (hgraph : WellFormed graph)
    (hrun : GraphInterval allocator itemSize genRange serialize probeConfig graph events) :
    Paced probeConfig.probeDelaySec probeConfig.peerDelaySec events ∧
    ∃ keys : List P,
      (randomAttempts events).map (fun a => (a.1, a.2.1)) =
        keys.map (fun key => (hexStr (serialize key), probeConfig.randomMinAmountMsat)) ∧
      keys.Nodup ∧
      (∀ key ∈ keys, ∃ n ∈ graph.nodes, n ≠ graph.ourNodeId ∧ graph.asPubkey n = some key) ∧
      keys.length = (if (computeModes probeConfig).randomGraph then
        min (requestedCount pointerWidth probeConfig)
          (eligibleNodes graph.asPubkey graph.ourNodeId graph.nodes).length else 0) ∧
      starts events ≤ (probeConfig.peers.filterMap extractPeerPubkey).length *
        probeConfig.amountMsats.length + keys.length := by
  refine ⟨interval_paced hrun.trace, ?_⟩
  have hpeers := peerAttempts_length hrun.trace
  have hstarts := starts_split hrun.trace
  rcases interval_random hrun.trace with ⟨hmode, hnone⟩ | ⟨hmode, recipients, hmem, hattempts⟩
  · rw [hnone] at hstarts ⊢
    rw [hmode]
    refine ⟨[], rfl, List.nodup_nil, nofun, rfl, ?_⟩
    rw [hstarts]
    exact hpeers
  · obtain ⟨rng, keys, hkeys, rfl⟩ := hrun.sampled recipients hmem
    obtain ⟨hnodup, hlength, hnodes⟩ := selected hgraph hkeys
    -- one attempt for each recipient, so they can be counted by the keys
    have hcount : (randomAttempts events).length = keys.length := by
      have hlen := congrArg List.length hattempts
      rwa [List.length_map, List.length_map, List.length_map] at hlen
    refine ⟨keys, ?_, hnodup, hnodes, ?_, ?_⟩
    · rw [hattempts, List.map_map]
      rfl
    · rw [if_pos hmode, hlength]
    · rw [hstarts, hcount]
      omega

end Recipients

/-- One random probe in each interval. -/
def oneProbe : ProbingConfig := ⟨60, [], [], 1000, 1, 30, 1, 5⟩

/-- The node and one other. -/
def twoNodes : Graph Nat Nat := ⟨[0, 1], some, 0⟩

/-- One random probe that could not be sent. -/
def oneProbeEvents : List (LoopEvent Unit) :=
  [.sampled ["01"], .started .randomGraph "01" 1000,
    .completed .randomGraph "01" 1000 (.sendError (.sendFailed ())), .slept 1]

/-- It goes to the one other node of the graph. -/
theorem interval_schedule_oneProbe : ∃ keys : List Nat,
    (randomAttempts oneProbeEvents).map (fun a => (a.1, a.2.1)) =
      keys.map (fun key => (hexStr [UInt8.ofNat key], 1000)) ∧ keys.length = 1 := by
  have hgraph : WellFormed twoNodes := by
    refine ⟨by decide, fun m n key hm hn => ?_⟩
    exact Option.some.inj (hm.trans hn.symm)
  have hrun : GraphInterval (boundedAllocator 64 (2 ^ 30)) 64
      (fun _ _ (rng : Unit) => (0, rng)) (fun key => [UInt8.ofNat key])
      oneProbe twoNodes oneProbeEvents := by
    refine ⟨.sample 1 ["01"] (.attempt _ _ _ _ (.sleep 1 .done)), fun recipients hmem => ?_⟩
    obtain rfl : recipients = ["01"] := by simpa [oneProbeEvents] using hmem
    exact ⟨(), [1], by decide, by decide⟩
  obtain ⟨-, keys, hattempts, -, -, hlength, -⟩ := interval_schedule hgraph hrun
  exact ⟨keys, hattempts, hlength⟩

end RandomProbes
