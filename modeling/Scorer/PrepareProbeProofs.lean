import Scorer.PeerClimbProofs

/-! # Which attempts reach `send_probe`

    An attempt for an entry of the peer list calls `prepare_probe`, which checks the
    amount and the key before it calls `send_probe`.  Its errors are completions like
    any other, and stop the climb for the entry.

    * `prepareProbe` follows the source up to the call of `send_probe`;
    * `IntervalRun`: the events of an interval in which rejected attempts complete as
      rejected;
    * `really_probes_iff`: every configured amount whose smaller ones succeed is sent,
      exactly when no zero is configured next to it. -/

namespace PrepareProbe

open KeyText ProbeAttempt SectionDefault ProbingLoop PeerClimb

variable {φ P : Type} (fromSlice : List UInt8 → Option P)

/-- `prepare_probe`: an error, or the arguments of its call of `send_probe`. -/
def prepareProbe (pubKeyHex : String) (probeAmount : UInt64) :
    Except (ProbeError φ) (P × UInt64) :=
  if probeAmount = 0 then .error (.invalidInput "probe amount must be greater than 0")
  else
    match toVec pubKeyHex with
    | none => .error (.invalidInput "invalid peer pubkey hex")
    | some pubKeyBytes =>
        match fromSlice pubKeyBytes with
        | none => .error (.invalidInput "invalid peer pubkey")
        | some pubkey => .ok (pubkey, probeAmount)

/-- The key that a text holds. -/
def heldKey (pubKeyHex : String) : Option P := (toVec pubKeyHex).bind fromSlice

/-- `run_probe_attempt` returns the error of `prepare_probe`; what `send_probe` and the
    wait after it bring is open. -/
def Answered : LoopEvent φ → Prop
  | .completed .whitelist destination amountMsat completion =>
      ∀ err, prepareProbe fromSlice destination amountMsat = .error err →
        completion = .sendError err
  | _ => True

/-- The events of an interval. -/
structure IntervalRun (probeConfig : ProbingConfig) (events : List (LoopEvent φ)) : Prop where
  trace : Trace (intervalPass probeConfig) events
  answered : ∀ event ∈ events, Answered fromSlice event

/-- The calls of `send_probe` for the peer list. -/
def probesSent (events : List (LoopEvent φ)) : List (P × UInt64) :=
  (peerStarts events).filterMap fun start =>
    (prepareProbe (φ := φ) fromSlice start.1 start.2).toOption

/-- Each positive amount is sent to each entry with a valid key, if the attempts at
    the smaller positive amounts for that peer succeed. -/
def ReallyProbes (probeConfig : ProbingConfig) (events : List (LoopEvent φ)) : Prop :=
  ∀ peer ∈ probeConfig.peers, ∀ peerPubkey pubkey,
    extractPeerPubkey peer = some peerPubkey → heldKey fromSlice peerPubkey = some pubkey →
    ∀ amount ∈ probeConfig.amountMsats, 0 < amount →
      (∀ attempt ∈ peerAttempts events, heldKey fromSlice attempt.1 = some pubkey →
        0 < attempt.2.1 → attempt.2.1 < amount → Succeeded attempt.2.2) →
      (pubkey, amount) ∈ probesSent fromSlice events

/-- Some entry of the list has a valid key. -/
def HasValidPeer (probeConfig : ProbingConfig) : Prop :=
  ∃ peer ∈ probeConfig.peers, ∃ peerPubkey pubkey,
    extractPeerPubkey peer = some peerPubkey ∧ heldKey fromSlice peerPubkey = some pubkey

variable {fromSlice} {probeConfig : ProbingConfig} {events : List (LoopEvent φ)}
  {pubKeyHex : String} {amount : UInt64} {pubkey : P}

/-! ## What is prepared -/

/-- A key and an amount are handed to `send_probe`. -/
theorem prepareProbe_ok (hkey : heldKey fromSlice pubKeyHex = some pubkey)
    (hamount : amount ≠ 0) :
    prepareProbe (φ := φ) fromSlice pubKeyHex amount = .ok (pubkey, amount) := by
  obtain ⟨bytes, hbytes, hslice⟩ := Option.bind_eq_some_iff.mp hkey
  rw [prepareProbe, if_neg hamount, hbytes]
  simp only [hslice]

theorem prepareProbe_zero :
    prepareProbe (φ := φ) fromSlice pubKeyHex 0 =
      .error (.invalidInput "probe amount must be greater than 0") :=
  if_pos rfl

theorem mem_peerAttempts {attempt : String × Attempt φ} (h : attempt ∈ peerAttempts events) :
    .completed .whitelist attempt.1 attempt.2.1 attempt.2.2 ∈ events := by
  obtain ⟨event, hevent, heq⟩ := List.mem_filterMap.mp h
  cases event with
  | completed mode destination amountMsat completion =>
      cases mode with
      | whitelist =>
          obtain rfl := Option.some.inj heq
          exact hevent
      | randomGraph => exact nomatch heq
  | started mode destination amountMsat => exact nomatch heq
  | slept secs => exact nomatch heq
  | sampled recipients => exact nomatch heq

/-! ## Sorted amounts -/

theorem mem_sortedAmounts : amount ∈ sortedAmounts probeConfig ↔
    amount ∈ probeConfig.amountMsats :=
  (sortedAmounts_perm probeConfig).mem_iff

/-- A configured zero comes first. -/
theorem sortedAmounts_zero (h : 0 ∈ probeConfig.amountMsats) :
    ∃ amounts, sortedAmounts probeConfig = 0 :: amounts := by
  have hmem := mem_sortedAmounts.mpr h
  have hsorted := sortedAmounts_pairwise probeConfig
  cases hamounts : sortedAmounts probeConfig with
  | nil =>
      rw [hamounts] at hmem
      exact nomatch hmem
  | cons first amounts =>
      rw [hamounts] at hmem hsorted
      rcases List.mem_cons.mp hmem with rfl | htail
      · exact ⟨amounts, rfl⟩
      · have hle : first ≤ 0 := List.rel_of_pairwise_cons hsorted htail
        obtain rfl : first = 0 := UInt64.le_antisymm hle (UInt64.zero_le)
        exact ⟨amounts, rfl⟩

/-! ## With a zero among the amounts -/

/-- The climbs of a run. -/
theorem run_climbs (h : IntervalRun fromSlice probeConfig events) :
    ∃ climbs, Climbs (sortedAmounts probeConfig)
      (probeConfig.peers.filterMap extractPeerPubkey) climbs ∧
      peerAttempts events = joined climbs :=
  (interval_attempts_iff probeConfig _).mp ⟨events, h.trace, rfl⟩

/-- An attempt of several climbs is one of some climb. -/
theorem mem_joined {climbs : List (String × List (Attempt φ))}
    {attempt : String × Attempt φ} : attempt ∈ joined climbs ↔
      ∃ attempts, (attempt.1, attempts) ∈ climbs ∧ attempt.2 ∈ attempts := by
  rw [joined, List.mem_flatMap]
  constructor
  · rintro ⟨entry, hentry, hmem⟩
    obtain ⟨a, ha, rfl⟩ := List.mem_map.mp hmem
    exact ⟨entry.2, hentry, ha⟩
  · rintro ⟨attempts, hentry, hmem⟩
    exact ⟨_, hentry, List.mem_map.mpr ⟨attempt.2, hmem, rfl⟩⟩

/-- The zero is rejected, and no entry goes further. -/
theorem only_zero_attempted (h : IntervalRun fromSlice probeConfig events)
    (hzero : 0 ∈ probeConfig.amountMsats) :
    ∀ attempt ∈ peerAttempts events, attempt.2.1 = 0 := by
  intro attempt hattempt
  obtain ⟨climbs, hclimbs, hjoined⟩ := run_climbs h
  obtain ⟨amounts, hamounts⟩ := sortedAmounts_zero hzero
  rw [hjoined] at hattempt
  obtain ⟨attempts, hentry, hmem⟩ := mem_joined.mp hattempt
  have hclimb := hclimbs.climb _ hentry
  rw [hamounts] at hclimb
  obtain ⟨completion, rest, hattempts⟩ := climb_cons hclimb
  have hattempts' : attempts = (0, completion) :: rest := hattempts
  subst hattempts'
  have hfirst : (attempt.1, 0, completion) ∈ peerAttempts events := by
    rw [hjoined]
    exact mem_joined.mpr ⟨_, hentry, List.mem_cons_self⟩
  have hrejected : completion = .sendError _ :=
    h.answered _ (mem_peerAttempts hfirst) _ prepareProbe_zero
  have hfail : ¬ Succeeded completion := by
    rintro ⟨paymentHash, hsuccess⟩
    exact nomatch hrejected.symm.trans hsuccess
  obtain rfl := (climb_failure hfail).mp hclimb
  obtain heq := List.mem_singleton.mp hmem
  rw [heq]

/-- An amount of zero comes first, and its refusal ends every climb. -/
theorem not_sent_of_zero (h : IntervalRun fromSlice probeConfig events)
    (hzero : 0 ∈ probeConfig.amountMsats) : probesSent fromSlice events = [] := by
  rw [probesSent, starts_complete h.trace]
  refine List.filterMap_eq_nil_iff.mpr fun start hstart => ?_
  obtain ⟨attempt, hattempt, rfl⟩ := List.mem_map.mp hstart
  have hamount : attempt.2.1 = 0 := only_zero_attempted h hzero attempt hattempt
  simp only [hamount, prepareProbe_zero]
  rfl

/-! ## Without -/

/-- A climb whose attempts below `amount` succeed gets to it. -/
theorem climb_reaches {amounts : List UInt64} {attempts : List (Attempt φ)}
    (hsorted : amounts.Pairwise (· ≤ ·)) (hclimb : Climb amounts attempts)
    (hmem : amount ∈ amounts)
    (hbelow : ∀ attempt ∈ attempts, attempt.1 < amount → Succeeded attempt.2) :
    ∃ attempt ∈ attempts, attempt.1 = amount := by
  by_contra hnone
  have hnot : amount ∉ attempts.map Prod.fst := by
    intro h
    obtain ⟨attempt, ha, heq⟩ := List.mem_map.mp h
    exact hnone ⟨attempt, ha, heq⟩
  rcases hclimb.stops with hall | ⟨last, hlast, hfail⟩
  · exact hnot (hall ▸ hmem)
  · obtain ⟨later, hlater⟩ := hclimb.begins
    have hlastMem : last ∈ attempts := List.mem_of_getLast? hlast
    have hin : last.1 ∈ attempts.map Prod.fst := List.mem_map_of_mem hlastMem
    have hamountLater : amount ∈ later := by
      rw [← hlater] at hmem
      exact (List.mem_append.mp hmem).resolve_left hnot
    rw [← hlater] at hsorted
    have hle : last.1 ≤ amount :=
      (List.pairwise_append.mp hsorted).2.2 last.1 hin amount hamountLater
    have hne : last.1 ≠ amount := fun heq => hnot (heq ▸ hin)
    exact hfail (hbelow last hlastMem (UInt64.lt_of_le_of_ne hle hne))

/-- Without it every valid peer gets a probe. -/
theorem really_probes_of_positive (h : IntervalRun fromSlice probeConfig events)
    (hzero : 0 ∉ probeConfig.amountMsats) : ReallyProbes fromSlice probeConfig events := by
  intro peer hpeer peerPubkey pubkey hextract hkey amount hamount hpos hbelow
  obtain ⟨climbs, hclimbs, hjoined⟩ := run_climbs h
  have hin : peerPubkey ∈ climbs.map Prod.fst := by
    rw [hclimbs.keys]
    exact List.mem_filterMap.mpr ⟨peer, hpeer, hextract⟩
  obtain ⟨entry, hentry, rfl⟩ := List.mem_map.mp hin
  have hclimb := hclimbs.climb entry hentry
  have hattempted : ∀ attempt ∈ entry.2, (entry.1, attempt) ∈ peerAttempts events := by
    intro attempt ha
    rw [hjoined]
    exact mem_joined.mpr ⟨entry.2, hentry, ha⟩
  -- every amount below was attempted with success, so the climb comes to this one
  obtain ⟨attempt, ha, rfl⟩ := climb_reaches (sortedAmounts_pairwise probeConfig) hclimb
    (mem_sortedAmounts.mpr hamount) (fun attempt ha hlt => by
      have hconfigured : attempt.1 ∈ probeConfig.amountMsats :=
        mem_sortedAmounts.mp (hclimb.begins.subset (List.mem_map_of_mem ha))
      refine hbelow _ (hattempted attempt ha) hkey ?_ hlt
      exact UInt64.pos_iff_ne_zero.mpr fun heq => hzero (heq ▸ hconfigured))
  have hne : attempt.1 ≠ 0 := UInt64.pos_iff_ne_zero.mp hpos
  rw [probesSent, starts_complete h.trace]
  refine List.mem_filterMap.mpr ⟨(entry.1, attempt.1), ?_, ?_⟩
  · exact List.mem_map.mpr ⟨_, hattempted attempt ha, rfl⟩
  · simp only [prepareProbe_ok hkey hne]
    rfl

/-- With it and another amount a valid peer gets none. -/
theorem not_really_probes (h : IntervalRun fromSlice probeConfig events)
    (hzero : 0 ∈ probeConfig.amountMsats) (hamount : amount ∈ probeConfig.amountMsats)
    (hne : amount ≠ 0) (hvalid : HasValidPeer fromSlice probeConfig) :
    ¬ ReallyProbes fromSlice probeConfig events := by
  intro hprobes
  obtain ⟨peer, hpeer, peerPubkey, pubkey, hextract, hkey⟩ := hvalid
  -- no smaller positive amount is attempted, so none fails
  have hsent := hprobes peer hpeer peerPubkey pubkey hextract hkey amount hamount
    (UInt64.pos_iff_ne_zero.mpr hne) (fun attempt hattempt _ hpos _ => by
      rw [only_zero_attempted h hzero attempt hattempt] at hpos
      exact absurd hpos (UInt64.lt_irrefl 0))
  rw [not_sent_of_zero h hzero] at hsent
  exact nomatch hsent

/-- **WHEN A CONFIGURATION REALLY PROBES**: in every interval, exactly when no zero is
    configured, or nothing positive is, or no entry has a valid key. -/
theorem really_probes_iff (h : IntervalRun fromSlice probeConfig events) :
    ReallyProbes fromSlice probeConfig events ↔
      0 ∉ probeConfig.amountMsats ∨ (∀ amount ∈ probeConfig.amountMsats, amount = 0) ∨
        ¬ HasValidPeer fromSlice probeConfig := by
  constructor
  · intro hprobes
    by_contra hcondition
    simp only [not_or, not_not, not_forall] at hcondition
    obtain ⟨hzero, ⟨amount, hamount, hne⟩, hvalid⟩ := hcondition
    exact not_really_probes h hzero hamount hne hvalid hprobes
  · rintro (hzero | hnone | hinvalid)
    · exact really_probes_of_positive h hzero
    · intro peer _ peerPubkey pubkey _ _ amount hamount hpos
      exact absurd (hnone amount hamount) (UInt64.pos_iff_ne_zero.mp hpos)
    · intro peer hpeer peerPubkey pubkey hextract hkey
      exact absurd ⟨peer, hpeer, peerPubkey, pubkey, hextract, hkey⟩ hinvalid

/-! ## Two configurations -/

/-- Climbs in which the rejected attempts complete as rejected are those of a run. -/
theorem run_of_climbs {climbs : List (String × List (Attempt φ))}
    (hclimbs : Climbs (sortedAmounts probeConfig)
      (probeConfig.peers.filterMap extractPeerPubkey) climbs)
    (hanswered : ∀ attempt ∈ joined climbs, ∀ err,
      prepareProbe fromSlice attempt.1 attempt.2.1 = .error err →
        attempt.2.2 = .sendError err) :
    ∃ events : List (LoopEvent φ), IntervalRun fromSlice probeConfig events := by
  obtain ⟨events, htrace, hattempts⟩ :=
    (interval_attempts_iff probeConfig _).mpr ⟨climbs, hclimbs, rfl⟩
  refine ⟨events, htrace, fun event hevent => ?_⟩
  cases event with
  | completed mode destination amountMsat completion =>
      cases mode with
      | whitelist =>
          have hmem : (destination, amountMsat, completion) ∈ peerAttempts events :=
            List.mem_filterMap.mpr ⟨_, hevent, rfl⟩
          exact hanswered _ (hattempts ▸ hmem)
      | randomGraph => exact trivial
  | started mode destination amountMsat => exact trivial
  | slept secs => exact trivial
  | sampled recipients => exact trivial

/-- The encodings of compressed keys, by their length and first byte. -/
private def compressed (bytes : List UInt8) : Option (List UInt8) :=
  if bytes.length = 33 ∧ (bytes.head? = some 2 ∨ bytes.head? = some 3) then some bytes
  else none

/-- A key that a peer of the list has. -/
private def peerKey : String :=
  "02e89ca9e8da72b33d896bae51d20e7e1f0571cece852d1387b4e2f4ae48c80a85"

/-- A configuration with this peer. -/
private def onePeer (amountMsats : List UInt64) : ProbingConfig :=
  ⟨60, [peerKey ++ "@127.0.0.1:9735"], amountMsats, 0, 1, 60, 1, 2⟩

private theorem extract_peerKey (amountMsats : List UInt64) :
    (onePeer amountMsats).peers.filterMap extractPeerPubkey = [peerKey] := by
  have h : extractPeerPubkey (peerKey ++ "@127.0.0.1:9735") = some peerKey := by decide +kernel
  exact (List.filterMap_cons_some h).trans rfl

private theorem sorted_onePeer {amountMsats : List UInt64}
    (h : amountMsats.Pairwise fun a b => decide (a ≤ b) = true) :
    sortedAmounts (onePeer amountMsats) = amountMsats :=
  List.mergeSort_of_pairwise h

private theorem held_peerKey : ∃ pubkey, heldKey compressed peerKey = some pubkey :=
  Option.isSome_iff_exists.mp (by decide +kernel)

/-- A run with one attempt for the one entry. -/
private theorem onePeer_run (amountMsats : List UInt64) (attempt : Attempt String)
    (hsorted : amountMsats.Pairwise fun a b => decide (a ≤ b) = true)
    (hclimb : Climb amountMsats [attempt])
    (hanswered : ∀ err, prepareProbe compressed peerKey attempt.1 = .error err →
      attempt.2 = .sendError err) :
    ∃ events : List (LoopEvent String), IntervalRun compressed (onePeer amountMsats) events := by
  have hclimbs : Climbs (sortedAmounts (onePeer amountMsats))
      ((onePeer amountMsats).peers.filterMap extractPeerPubkey) [(peerKey, [attempt])] := by
    rw [extract_peerKey, sorted_onePeer hsorted]
    refine ⟨rfl, fun entry he => ?_⟩
    obtain rfl := List.mem_singleton.mp he
    exact hclimb
  refine run_of_climbs hclimbs fun a ha err herr => ?_
  obtain rfl := List.mem_singleton.mp ha
  exact hanswered err herr

/-- One positive amount, whose probe succeeds. -/
theorem really_probes_iff_onePeer : ∃ events : List (LoopEvent String),
    IntervalRun compressed (onePeer [1000]) events ∧
      (ReallyProbes compressed (onePeer [1000]) events ↔
        0 ∉ (onePeer [1000]).amountMsats ∨
          (∀ amount ∈ (onePeer [1000]).amountMsats, amount = 0) ∨
          ¬ HasValidPeer compressed (onePeer [1000])) := by
  have hsuccess : Succeeded (.success (Vector.replicate 32 0) : Completion String) := ⟨_, rfl⟩
  obtain ⟨events, hrun⟩ := onePeer_run [1000] (1000, _) (List.pairwise_singleton _ _)
    ((climb_success hsuccess).mpr (climb_nil.mpr rfl)) (fun err herr => by
      obtain ⟨pubkey, hkey⟩ := held_peerKey
      rw [prepareProbe_ok hkey (by decide)] at herr
      exact nomatch herr)
  exact ⟨events, hrun, really_probes_iff hrun⟩

/-- A whole configuration, with an amount of zero before another. -/
private def zeroConfig : NodeConfig :=
  ⟨⟨"127.0.0.1", 8332, "user", "pass"⟩, "testnet", ⟨9735, none, []⟩, ⟨true, none, 6⟩,
    some (onePeer [0, 1000]), none⟩

/-- An accepted configuration with a zero among the amounts: the zero is rejected, and
    the 1000 msat are not sent. -/
theorem zero_stops_probing : validate readyPlatform zeroConfig = none ∧
    zeroConfig.probing = some (onePeer [0, 1000]) ∧
    (computeModes (onePeer [0, 1000])).peerList = true ∧
    ∃ events : List (LoopEvent String), IntervalRun compressed (onePeer [0, 1000]) events ∧
      ¬ ReallyProbes compressed (onePeer [0, 1000]) events := by
  refine ⟨rfl, rfl, rfl, ?_⟩
  have hrejected : ¬ Succeeded
      (.sendError (.invalidInput "probe amount must be greater than 0") : Completion String) := by
    rintro ⟨paymentHash, ⟨⟩⟩
  obtain ⟨events, hrun⟩ := onePeer_run [0, 1000] (0, _) (by decide)
    ((climb_failure hrejected).mpr rfl) (fun err herr => by
      rw [prepareProbe_zero] at herr
      obtain rfl := Except.error.inj herr
      rfl)
  have hvalid : HasValidPeer compressed (onePeer [0, 1000]) := by
    obtain ⟨pubkey, hkey⟩ := held_peerKey
    have hmem : peerKey ∈ (onePeer [0, 1000]).peers.filterMap extractPeerPubkey := by
      rw [extract_peerKey]
      exact List.mem_cons_self
    obtain ⟨peer, hpeer, hextract⟩ := List.mem_filterMap.mp hmem
    exact ⟨peer, hpeer, peerKey, pubkey, hextract, hkey⟩
  have hamount : (1000 : UInt64) ∈ (onePeer [0, 1000]).amountMsats := by decide
  exact ⟨events, hrun, not_really_probes hrun (by decide) hamount (by decide) hvalid⟩

end PrepareProbe
