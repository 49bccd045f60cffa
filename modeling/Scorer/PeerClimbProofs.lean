import Scorer.ProbingLoopProofs

/-! # Climbing the amounts of each peer

    In peer-list mode the amounts are tried in ascending order, for each entry of the
    list, up to the first attempt that does not succeed.

    * `Climb`: the shortest beginning of the sorted amounts that ends in an attempt
      that did not succeed, or all of them;
    * `trace_probeAmounts`: the inner loop makes a climb, any climb, and goes on in the
      same way after each;
    * `peer_list_climbs`: the attempts of an interval are one climb for each entry with
      a key, in the order of the list and each independent of the others. -/

namespace PeerClimb

open ProbeAttempt SectionDefault ProbingLoop

variable {φ : Type}

/-! ## Climbs -/

/-- The only completion after which a peer gets its next amount. -/
def Succeeded (completion : Completion φ) : Prop :=
  ∃ paymentHash, completion = .success paymentHash

/-- `should_break_peer_amounts` is true of all the others. -/
theorem break_iff {completion : Completion φ} :
    shouldBreakPeerAmounts completion = true ↔ ¬ Succeeded completion := by
  constructor
  · rintro h ⟨paymentHash, rfl⟩
    exact Bool.false_ne_true h
  · intro h
    cases completion with
    | success paymentHash => exact absurd ⟨paymentHash, rfl⟩ h
    | failed paymentHash => rfl
    | dropped paymentHash => rfl
    | timeout paymentHash => rfl
    | sendError err => rfl

/-- An attempt at an amount, with its completion. -/
abbrev Attempt (φ : Type) := UInt64 × Completion φ

/-- The attempts for one entry: only the last may fail, and what follows is not tried
    only if it does. -/
structure Climb (amounts : List UInt64) (attempts : List (Attempt φ)) : Prop where
  begins : attempts.map Prod.fst <+: amounts
  climbs : ∀ attempt ∈ attempts.dropLast, Succeeded attempt.2
  stops : attempts.map Prod.fst = amounts ∨
    ∃ attempt, attempts.getLast? = some attempt ∧ ¬ Succeeded attempt.2

variable {amounts : List UInt64} {attempts : List (Attempt φ)} {amount : UInt64}
  {completion : Completion φ}

theorem climb_nil : Climb [] attempts ↔ attempts = [] := by
  constructor
  · intro h
    exact List.map_eq_nil_iff.mp (List.prefix_nil.mp h.begins)
  · rintro rfl
    exact ⟨List.prefix_refl _, (by rintro _ ⟨⟩), Or.inl rfl⟩

/-- A climb goes on after a success. -/
theorem climb_success (hs : Succeeded completion) :
    Climb (amount :: amounts) ((amount, completion) :: attempts) ↔ Climb amounts attempts := by
  cases attempts with
  | nil =>
      constructor
      · intro h
        refine ⟨List.nil_prefix, (by rintro _ ⟨⟩), ?_⟩
        rcases h.stops with hall | ⟨attempt, hlast, hfail⟩
        · exact Or.inl (List.cons.inj hall).2
        · obtain rfl := Option.some.inj hlast
          exact absurd hs hfail
      · intro h
        refine ⟨List.prefix_cons_inj amount |>.mpr List.nil_prefix, (by rintro _ ⟨⟩), ?_⟩
        rcases h.stops with hall | ⟨attempt, hlast, -⟩
        · exact Or.inl (congrArg (amount :: ·) hall)
        · exact nomatch hlast
  | cons attempt rest =>
      have hdrop : ((amount, completion) :: attempt :: rest).dropLast =
          (amount, completion) :: (attempt :: rest).dropLast := rfl
      have hlast : ((amount, completion) :: attempt :: rest).getLast? =
          (attempt :: rest).getLast? := rfl
      constructor
      · intro h
        refine ⟨(List.prefix_cons_inj amount).mp h.begins, fun a ha => ?_, ?_⟩
        · exact h.climbs a (hdrop ▸ List.mem_cons_of_mem _ ha)
        · rcases h.stops with hall | hfail
          · exact Or.inl (List.cons.inj hall).2
          · exact Or.inr (hlast ▸ hfail)
      · intro h
        refine ⟨(List.prefix_cons_inj amount).mpr h.begins, fun a ha => ?_, ?_⟩
        · rw [hdrop] at ha
          rcases List.mem_cons.mp ha with rfl | ha
          · exact hs
          · exact h.climbs a ha
        · rcases h.stops with hall | hfail
          · exact Or.inl (congrArg (amount :: ·) hall)
          · exact Or.inr (hlast ▸ hfail)

/-- It ends with a failure. -/
theorem climb_failure (hs : ¬ Succeeded completion) :
    Climb (amount :: amounts) ((amount, completion) :: attempts) ↔ attempts = [] := by
  constructor
  · intro h
    cases attempts with
    | nil => rfl
    | cons attempt rest => exact absurd (h.climbs (amount, completion) List.mem_cons_self) hs
  · rintro rfl
    exact ⟨List.prefix_cons_inj amount |>.mpr List.nil_prefix, (by rintro _ ⟨⟩),
      Or.inr ⟨_, rfl, hs⟩⟩

/-- It starts with the first amount. -/
theorem climb_cons (h : Climb (amount :: amounts) attempts) :
    ∃ completion rest, attempts = (amount, completion) :: rest := by
  cases attempts with
  | nil =>
      rcases h.stops with hall | ⟨attempt, hlast, -⟩
      · exact nomatch hall
      · exact nomatch hlast
  | cons attempt rest =>
      obtain ⟨rfl, -⟩ := List.cons_prefix_cons.mp h.begins
      exact ⟨attempt.2, rest, rfl⟩

/-! ## The loops -/

variable {probeDelay peerDelay : UInt64} {next : ProbeTask φ} {events : List (LoopEvent φ)}
  {peerPubkey : String}

/-- The events of an attempt at one amount. -/
def attemptEvents (probeDelay : UInt64) (peerPubkey : String) (attempt : Attempt φ) :
    List (LoopEvent φ) :=
  [.started .whitelist peerPubkey attempt.1,
    .completed .whitelist peerPubkey attempt.1 attempt.2, .slept probeDelay]

/-- **THE INNER LOOP**: it makes a climb, and what it leads to does not depend on it. -/
theorem trace_probeAmounts {amounts : List UInt64} :
    ∀ {events : List (LoopEvent φ)},
      Trace (probeAmounts probeDelay next peerPubkey amounts) events ↔
        ∃ attempts rest, Climb amounts attempts ∧ Trace next rest ∧
          events = attempts.flatMap (attemptEvents probeDelay peerPubkey) ++ rest := by
  induction amounts with
  | nil =>
      intro events
      constructor
      · intro h
        exact ⟨[], events, climb_nil.mpr rfl, h, rfl⟩
      · rintro ⟨attempts, rest, hclimb, hrest, rfl⟩
        obtain rfl := climb_nil.mp hclimb
        exact hrest
  | cons amount amounts ih =>
      intro events
      rw [probeAmounts, trace_attempt]
      constructor
      · rintro ⟨completion, rest, hslept, rfl⟩
        obtain ⟨after, hafter, rfl⟩ := trace_sleep.mp hslept
        -- after a success the loop goes on, after a failure it breaks
        by_cases hs : Succeeded completion
        · rw [if_neg (fun hbreak => break_iff.mp hbreak hs)] at hafter
          obtain ⟨attempts, rest, hclimb, hrest, rfl⟩ := ih.mp hafter
          exact ⟨(amount, completion) :: attempts, rest, (climb_success hs).mpr hclimb, hrest,
            rfl⟩
        · rw [if_pos (break_iff.mpr hs)] at hafter
          exact ⟨[(amount, completion)], after, (climb_failure hs).mpr rfl, hafter, rfl⟩
      · rintro ⟨attempts, rest, hclimb, hrest, rfl⟩
        obtain ⟨completion, attempts, rfl⟩ := climb_cons hclimb
        refine ⟨completion, _, trace_sleep.mpr ⟨_, ?_, rfl⟩, rfl⟩
        by_cases hs : Succeeded completion
        · rw [if_neg (fun hbreak => break_iff.mp hbreak hs)]
          exact ih.mpr ⟨attempts, rest, (climb_success hs).mp hclimb, hrest, rfl⟩
        · rw [if_pos (break_iff.mpr hs)]
          obtain rfl := (climb_failure hs).mp hclimb
          exact hrest

/-- The attempts of the peer-list part, with their keys. -/
def peerAttempts (events : List (LoopEvent φ)) : List (String × Attempt φ) :=
  events.filterMap fun
    | .completed .whitelist peerPubkey amount completion =>
        some (peerPubkey, amount, completion)
    | _ => none

/-- The starts of the peer-list part. -/
def peerStarts (events : List (LoopEvent φ)) : List (String × UInt64) :=
  events.filterMap fun
    | .started .whitelist peerPubkey amount => some (peerPubkey, amount)
    | _ => none

/-- What starts also completes, in the same order. -/
theorem starts_complete {task : ProbeTask φ} (h : Trace task events) :
    peerStarts events = (peerAttempts events).map fun attempt => (attempt.1, attempt.2.1) := by
  induction h with
  | done => rfl
  | attempt mode destination amountMsat completion _ ih =>
      cases mode with
      | whitelist => exact congrArg ((destination, amountMsat) :: ·) ih
      | randomGraph => exact ih
  | sleep _ _ ih => exact ih
  | sample _ _ _ ih => exact ih

theorem peerAttempts_append (earlier later : List (LoopEvent φ)) :
    peerAttempts (earlier ++ later) = peerAttempts earlier ++ peerAttempts later :=
  List.filterMap_append

/-- The events of a climb show its attempts and no others. -/
theorem peerAttempts_climb (attempts : List (Attempt φ)) :
    peerAttempts (attempts.flatMap (attemptEvents probeDelay peerPubkey)) =
      attempts.map fun attempt => (peerPubkey, attempt) := by
  induction attempts with
  | nil => rfl
  | cons attempt attempts ih =>
      rw [List.flatMap_cons, peerAttempts_append, ih]
      rfl

/-- One climb for each key. -/
structure Climbs (amounts : List UInt64) (keys : List String)
    (climbs : List (String × List (Attempt φ))) : Prop where
  keys : climbs.map Prod.fst = keys
  climb : ∀ entry ∈ climbs, Climb amounts entry.2

/-- The attempts of the climbs, one climb after the other. -/
def joined (climbs : List (String × List (Attempt φ))) : List (String × Attempt φ) :=
  climbs.flatMap fun entry => entry.2.map fun attempt => (entry.1, attempt)

/-- The climbs of several peers: the first one's, and then the rest. -/
theorem climbs_cons {keys : List String} {climbs : List (String × List (Attempt φ))} :
    Climbs amounts (peerPubkey :: keys) climbs ↔
      ∃ attempts rest, climbs = (peerPubkey, attempts) :: rest ∧ Climb amounts attempts ∧
        Climbs amounts keys rest := by
  constructor
  · intro h
    cases climbs with
    | nil => exact nomatch h.keys
    | cons entry rest =>
        obtain ⟨rfl, hkeys⟩ := List.cons.inj h.keys
        exact ⟨entry.2, rest, rfl, h.climb entry List.mem_cons_self, hkeys,
          fun e he => h.climb e (List.mem_cons_of_mem _ he)⟩
  · rintro ⟨attempts, rest, rfl, hclimb, hrest⟩
    refine ⟨congrArg (peerPubkey :: ·) hrest.keys, fun e he => ?_⟩
    rcases List.mem_cons.mp he with rfl | he
    · exact hclimb
    · exact hrest.climb e he

/-- A pause between two entries has no attempt. -/
theorem trace_pause (p : Prop) [Decidable p] {attempts : List (String × Attempt φ)} :
    (∃ events, Trace (if p then .sleep peerDelay next else next) events ∧
        peerAttempts events = attempts) ↔
      ∃ events, Trace next events ∧ peerAttempts events = attempts := by
  by_cases hp : p
  · simp only [if_pos hp]
    constructor
    · rintro ⟨events, h, rfl⟩
      obtain ⟨rest, hrest, rfl⟩ := trace_sleep.mp h
      exact ⟨rest, hrest, rfl⟩
    · rintro ⟨events, h, rfl⟩
      exact ⟨.slept peerDelay :: events, trace_sleep.mpr ⟨events, h, rfl⟩, rfl⟩
  · simp only [if_neg hp]

/-- **THE OUTER LOOP**: one climb for each entry with a key, and then what comes next. -/
theorem trace_probePeers (peerCount : Nat) (peers : List String) :
    ∀ (peerIdx : Nat) (attempts : List (String × Attempt φ)),
      (∃ events, Trace (probePeers probeDelay peerDelay amounts next peerCount peerIdx peers)
          events ∧ peerAttempts events = attempts) ↔
        ∃ climbs rest, Climbs amounts (peers.filterMap extractPeerPubkey) climbs ∧
          Trace next rest ∧ attempts = joined climbs ++ peerAttempts rest := by
  induction peers with
  | nil =>
      intro peerIdx attempts
      constructor
      · rintro ⟨events, h, rfl⟩
        exact ⟨[], events, ⟨rfl, (by rintro _ ⟨⟩)⟩, h, rfl⟩
      · rintro ⟨climbs, rest, hclimbs, hrest, rfl⟩
        obtain rfl := List.map_eq_nil_iff.mp hclimbs.keys
        exact ⟨rest, hrest, rfl⟩
  | cons peer peers ih =>
      intro peerIdx attempts
      cases hkey : extractPeerPubkey peer with
      | none =>
          rw [List.filterMap_cons_none hkey]
          simp only [probePeers, hkey]
          exact ih (peerIdx + 1) attempts
      | some peerPubkey =>
          rw [List.filterMap_cons_some hkey]
          simp only [probePeers, hkey]
          constructor
          · rintro ⟨events, h, rfl⟩
            obtain ⟨climb, rest, hclimb, hrest, rfl⟩ := trace_probeAmounts.mp h
            obtain ⟨climbs, rest', hclimbs, hrest', hjoined⟩ :=
              (ih (peerIdx + 1) (peerAttempts rest)).mp ((trace_pause _).mp ⟨rest, hrest, rfl⟩)
            refine ⟨(peerPubkey, climb) :: climbs, rest',
              climbs_cons.mpr ⟨climb, climbs, rfl, hclimb, hclimbs⟩, hrest', ?_⟩
            rw [peerAttempts_append, peerAttempts_climb, hjoined, joined, joined,
              List.flatMap_cons, List.append_assoc]
          · rintro ⟨climbs, rest, hclimbs, hrest, rfl⟩
            obtain ⟨climb, climbs, rfl, hclimb, hclimbs⟩ := climbs_cons.mp hclimbs
            obtain ⟨events, hevents, hattempts⟩ := (trace_pause (peerIdx < peerCount - 1)).mpr
              ((ih (peerIdx + 1) _).mpr ⟨climbs, rest, hclimbs, hrest, rfl⟩)
            refine ⟨_, trace_probeAmounts.mpr ⟨climb, events, hclimb, hevents, rfl⟩, ?_⟩
            rw [peerAttempts_append, peerAttempts_climb, hattempts, joined, joined,
              List.flatMap_cons, List.append_assoc]

/-! ## The interval -/

variable {probeConfig : ProbingConfig}

/-- The random part makes no attempt for the list. -/
theorem randomPass_attempts (h : Trace (randomPass probeConfig) events) :
    peerAttempts events = [] := by
  have hrecipients : ∀ (delay amount : UInt64) (recipients : List String)
      (events : List (LoopEvent φ)), Trace (probeRecipients delay amount recipients) events →
        peerAttempts events = [] := by
    intro delay amount recipients
    induction recipients with
    | nil =>
        intro events h
        obtain rfl := trace_done.mp h
        rfl
    | cons recipient recipients ih =>
        intro events h
        obtain ⟨completion, rest, hslept, rfl⟩ := trace_attempt.mp h
        obtain ⟨after, hafter, rfl⟩ := trace_sleep.mp hslept
        exact ih after hafter
  rw [randomPass] at h
  split at h
  · cases h with
    | sample _ recipients hrest =>
        exact (List.filterMap_cons_none rfl).trans (hrecipients _ _ recipients _ hrest)
  · obtain rfl := trace_done.mp h
    rfl

/-- It always has a trace, for instance when the graph has no node. -/
theorem randomPass_trace (probeConfig : ProbingConfig) :
    ∃ events : List (LoopEvent φ), Trace (randomPass probeConfig) events := by
  rw [randomPass]
  split
  · exact ⟨_, .sample _ [] .done⟩
  · exact ⟨[], .done⟩

/-- Without the peer-list mode there is nothing to climb. -/
theorem nothing_of_noList (hmode : ¬ (computeModes probeConfig).peerList = true) :
    probeConfig.peers = [] ∨ sortedAmounts probeConfig = [] := by
  rcases Bool.and_eq_false_iff.mp (Bool.eq_false_iff.mpr hmode) with hpeers | hamounts
  · exact Or.inl (List.isEmpty_iff.mp (Bool.not_eq_eq_eq_not.mp hpeers))
  · right
    rw [sortedAmounts, List.isEmpty_iff.mp (Bool.not_eq_eq_eq_not.mp hamounts)]
    exact List.mergeSort_nil

/-- Without a list of peers, or of amounts, there are climbs all the same. -/
theorem climbs_of_noList (hmode : ¬ (computeModes probeConfig).peerList = true) :
    ∃ climbs : List (String × List (Attempt φ)), Climbs (sortedAmounts probeConfig)
      (probeConfig.peers.filterMap extractPeerPubkey) climbs := by
  rcases nothing_of_noList hmode with hpeers | hamounts
  · rw [hpeers]
    exact ⟨[], rfl, (by rintro _ ⟨⟩)⟩
  · rw [hamounts]
    refine ⟨(probeConfig.peers.filterMap extractPeerPubkey).map fun key => (key, []), ?_, ?_⟩
    · rw [List.map_map]
      exact List.map_id _
    · intro entry he
      obtain ⟨key, -, rfl⟩ := List.mem_map.mp he
      exact climb_nil.mpr rfl

theorem joined_of_noList (hmode : ¬ (computeModes probeConfig).peerList = true)
    {climbs : List (String × List (Attempt φ))}
    (h : Climbs (sortedAmounts probeConfig) (probeConfig.peers.filterMap extractPeerPubkey)
      climbs) : joined climbs = [] := by
  rcases nothing_of_noList hmode with hpeers | hamounts
  · rw [hpeers] at h
    obtain rfl := List.map_eq_nil_iff.mp h.keys
    rfl
  · rw [hamounts] at h
    refine List.flatMap_eq_nil_iff.mpr fun entry he => ?_
    rw [climb_nil.mp (h.climb entry he)]
    rfl

/-- The attempts of the peer list in an interval: one climb for each entry with a key,
    every combination being possible. -/
theorem interval_attempts_iff (probeConfig : ProbingConfig)
    (attempts : List (String × Attempt φ)) :
    (∃ events, Trace (intervalPass probeConfig) events ∧ peerAttempts events = attempts) ↔
      ∃ climbs, Climbs (sortedAmounts probeConfig)
        (probeConfig.peers.filterMap extractPeerPubkey) climbs ∧
        attempts = joined climbs := by
  rw [intervalPass]
  by_cases hmode : (computeModes probeConfig).peerList = true
  · rw [if_pos hmode, trace_probePeers]
    constructor
    · rintro ⟨climbs, rest, hclimbs, hrest, rfl⟩
      refine ⟨climbs, hclimbs, ?_⟩
      rw [randomPass_attempts hrest, List.append_nil]
    · rintro ⟨climbs, hclimbs, rfl⟩
      obtain ⟨rest, hrest⟩ := randomPass_trace probeConfig
      refine ⟨climbs, rest, hclimbs, hrest, ?_⟩
      rw [randomPass_attempts hrest, List.append_nil]
  · rw [if_neg hmode]
    constructor
    · rintro ⟨events, h, rfl⟩
      obtain ⟨climbs, hclimbs⟩ := climbs_of_noList (φ := φ) hmode
      exact ⟨climbs, hclimbs, by rw [randomPass_attempts h, joined_of_noList hmode hclimbs]⟩
    · rintro ⟨climbs, hclimbs, rfl⟩
      obtain ⟨rest, hrest⟩ := randomPass_trace probeConfig
      refine ⟨rest, hrest, ?_⟩
      rw [randomPass_attempts hrest, joined_of_noList hmode hclimbs]

theorem sortedAmounts_perm (probeConfig : ProbingConfig) :
    (sortedAmounts probeConfig).Perm probeConfig.amountMsats :=
  List.mergeSort_perm _ _

theorem sortedAmounts_pairwise (probeConfig : ProbingConfig) :
    (sortedAmounts probeConfig).Pairwise (· ≤ ·) := by
  have h : (sortedAmounts probeConfig).Pairwise fun a b => decide (a ≤ b) = true := by
    refine List.pairwise_mergeSort ?_ ?_ probeConfig.amountMsats
    · intro a b c hab hbc
      exact decide_eq_true (UInt64.le_trans (of_decide_eq_true hab) (of_decide_eq_true hbc))
    · intro a b
      rcases UInt64.le_total a b with h | h
      · rw [decide_eq_true h, Bool.true_or]
      · rw [decide_eq_true h, Bool.or_true]
  exact h.imp fun hab => of_decide_eq_true hab

/-- The second of three amounts fails, and the third is not tried. -/
example : Climb [1000, 2000, 4000]
    [(1000, .success (Vector.replicate 32 1)),
      (2000, (.failed (Vector.replicate 32 2) : Completion Unit))] where
  begins := ⟨[4000], rfl⟩
  climbs := List.forall_mem_singleton.mpr ⟨_, rfl⟩
  stops := .inr ⟨_, rfl, by rintro ⟨_, ⟨⟩⟩⟩

end PeerClimb
