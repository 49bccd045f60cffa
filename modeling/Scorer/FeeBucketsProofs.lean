import Mathlib

/-! # The fee buckets

    `poll_for_fee_estimates` asks `bitcoind` for five estimates in each round and stores
    them in one bucket for each confirmation target of LDK.  An estimate whose call
    fails is replaced by a bucket that it was stored in before.

    * `estimate`, `stores`, `pollRound` follow the source;
    * `pollRounds_floored`: every bucket that is read back is at least `MIN_FEERATE`,
      after any rounds;
    * `pollRounds_mirrored`: the buckets that share an estimate agree, after any rounds;
    * `failed_poll_keeps_iff`: a failed call leaves its buckets as they were, except in
      the first round. -/

namespace FeeBuckets

/-! ## Buckets -/

/-- LDK's `ConfirmationTarget`, the keys of the map. -/
inductive ConfirmationTarget where
  | maximumFeeEstimate
  | urgentOnChainSweep
  | minAllowedAnchorChannelRemoteFee
  | minAllowedNonAnchorChannelRemoteFee
  | anchorChannelFee
  | nonAnchorChannelFee
  | channelCloseMinimum
  | outputSpendingFee
  deriving DecidableEq, Repr

/-- `MIN_FEERATE`, the floor of the estimates in sat/kW. -/
def minFeerate : UInt32 := 253

/-- The map of the buckets; no bucket is added or removed after `new`. -/
abbrev Fees := ConfirmationTarget → Option UInt32

/-- The buckets that `BitcoindClient::new` inserts. -/
def initialFees : Fees
  | .maximumFeeEstimate => some 50000
  | .urgentOnChainSweep => some 5000
  | .minAllowedAnchorChannelRemoteFee => some minFeerate
  | .minAllowedNonAnchorChannelRemoteFee => some minFeerate
  | .anchorChannelFee => some minFeerate
  | .nonAnchorChannelFee => some 2000
  | .channelCloseMinimum => some minFeerate
  | .outputSpendingFee => some minFeerate

/-- `load_current`, and `get_est_sat_per_1000_weight`. -/
def getEstSatPer1000Weight (fees : Fees) (target : ConfirmationTarget) : UInt32 :=
  (fees target).getD minFeerate

/-- `store_fee`: a missing bucket stays missing. -/
def storeFee (fees : Fees) (target : ConfirmationTarget) (value : UInt32) : Fees :=
  fun other => if other = target then (fees target).map fun _ => value else fees other

/-! ## Estimates -/

/-- The estimates, each from one call. -/
inductive Estimate where
  | mempoolmin
  | background
  | normal
  | highPrio
  | veryHighPrio
  deriving DecidableEq, Repr

/-- The method of a call and its parameters. -/
inductive RpcCall where
  | getmempoolinfo
  | estimatesmartfee (confTargetBlocks : UInt32) (mode : String)
  deriving DecidableEq, Repr

/-- The call that answers an estimate. -/
def Estimate.call : Estimate → RpcCall
  | .mempoolmin => .getmempoolinfo
  | .background => .estimatesmartfee 144 "ECONOMICAL"
  | .normal => .estimatesmartfee 18 "ECONOMICAL"
  | .highPrio => .estimatesmartfee 6 "CONSERVATIVE"
  | .veryHighPrio => .estimatesmartfee 2 "CONSERVATIVE"

/-- `fallback_when_none`. -/
def Estimate.fallbackWhenNone : Estimate → UInt32
  | .mempoolmin => minFeerate
  | .background => minFeerate
  | .normal => 2000
  | .highPrio => 5000
  | .veryHighPrio => 50000

/-- `fallback_target_for_previous`. -/
def Estimate.previous : Estimate → ConfirmationTarget
  | .mempoolmin => .minAllowedAnchorChannelRemoteFee
  | .background => .anchorChannelFee
  | .normal => .nonAnchorChannelFee
  | .highPrio => .urgentOnChainSweep
  | .veryHighPrio => .maximumFeeEstimate

/-- `feerate_sat_per_kw` of a response, or an error. -/
inductive RpcAnswer where
  | feerate (satPerKw : UInt32)
  | noEstimate
  | error
  deriving DecidableEq, Repr

/-- The answers of a round. -/
abbrev Answers := RpcCall → RpcAnswer

/-- `estimate_smartfee`, and the `match` on `getmempoolinfo`. -/
def estimate (fees : Fees) (e : Estimate) : RpcAnswer → UInt32
  | .feerate satPerKw => max satPerKw minFeerate
  | .noEstimate => e.fallbackWhenNone
  | .error => getEstSatPer1000Weight fees e.previous

/-- `u32::saturating_sub`. -/
def saturatingSub (a b : UInt32) : UInt32 := if a < b then 0 else a - b

/-- The stores of a round, in order. -/
def stores (estimates : Estimate → UInt32) : List (ConfirmationTarget × UInt32) :=
  [(.maximumFeeEstimate, estimates .veryHighPrio),
    (.urgentOnChainSweep, estimates .highPrio),
    (.minAllowedAnchorChannelRemoteFee, estimates .mempoolmin),
    (.minAllowedNonAnchorChannelRemoteFee, saturatingSub (estimates .background) 250),
    (.anchorChannelFee, estimates .background),
    (.nonAnchorChannelFee, estimates .normal),
    (.channelCloseMinimum, estimates .background),
    (.outputSpendingFee, estimates .background)]

/-- The stores of a round, one after another. -/
def storeAll (fees : Fees) (entries : List (ConfirmationTarget × UInt32)) : Fees :=
  entries.foldl (fun fees entry => storeFee fees entry.1 entry.2) fees

/-- The estimates of a round; all calls come before the first store. -/
def estimates (answers : Answers) (fees : Fees) (e : Estimate) : UInt32 :=
  estimate fees e (answers e.call)

/-- A round of `poll_for_fee_estimates`. -/
def pollRound (fees : Fees) (answers : Answers) : Fees :=
  storeAll fees (stores (estimates answers fees))

/-- The map after rounds, from the one that `new` makes. -/
def pollRounds (rounds : List Answers) : Fees := rounds.foldl pollRound initialFees

/-- The estimate behind a bucket. -/
def behind : ConfirmationTarget → Estimate
  | .maximumFeeEstimate => .veryHighPrio
  | .urgentOnChainSweep => .highPrio
  | .minAllowedAnchorChannelRemoteFee => .mempoolmin
  | .minAllowedNonAnchorChannelRemoteFee => .background
  | .anchorChannelFee => .background
  | .nonAnchorChannelFee => .normal
  | .channelCloseMinimum => .background
  | .outputSpendingFee => .background

/-- What a round stores in a bucket. -/
def storedValue (estimates : Estimate → UInt32) (target : ConfirmationTarget) : UInt32 :=
  if target = .minAllowedNonAnchorChannelRemoteFee then
    saturatingSub (estimates .background) 250
  else estimates (behind target)

/-! ## A round -/

variable {fees : Fees} {answers : Answers} {target : ConfirmationTarget} {e : Estimate}
  {rounds : List Answers}

/-- Every target has a bucket. -/
def Complete (fees : Fees) : Prop := ∀ target, (fees target).isSome

theorem storeFee_complete (h : Complete fees) (target : ConfirmationTarget) (value : UInt32) :
    Complete (storeFee fees target value) := by
  intro other
  by_cases heq : other = target
  · simp only [storeFee, if_pos heq, Option.isSome_map]
    exact h target
  · simp only [storeFee, if_neg heq]
    exact h other

theorem storeAll_complete (h : Complete fees) (entries : List (ConfirmationTarget × UInt32)) :
    Complete (storeAll fees entries) := by
  induction entries generalizing fees with
  | nil => exact h
  | cons entry entries ih => exact ih (storeFee_complete h entry.1 entry.2)

theorem storeAll_concat (fees : Fees) (entries : List (ConfirmationTarget × UInt32))
    (entry : ConfirmationTarget × UInt32) : storeAll fees (entries ++ [entry]) =
      storeFee (storeAll fees entries) entry.1 entry.2 := by
  rw [storeAll, List.foldl_append]
  rfl

/-- A store changes its own bucket only. -/
theorem storeFee_eq (h : Complete fees) (value : UInt32) (other : ConfirmationTarget) :
    storeFee fees target value other = if other = target then some value else fees other := by
  by_cases heq : other = target
  · obtain ⟨old, hold⟩ := Option.isSome_iff_exists.mp (h target)
    simp only [storeFee, if_pos heq, hold, Option.map_some]
  · simp only [storeFee, if_neg heq]

theorem storeAll_other {entries : List (ConfirmationTarget × UInt32)}
    (h : target ∉ entries.map Prod.fst) : storeAll fees entries target = fees target := by
  induction entries generalizing fees with
  | nil => rfl
  | cons entry entries ih =>
      rw [List.map_cons, List.mem_cons, not_or] at h
      have hrest : storeAll (storeFee fees entry.1 entry.2) entries target =
          storeFee fees entry.1 entry.2 target := ih h.2
      exact hrest.trans (if_neg h.1)

/-- A bucket that it stores once has what was stored. -/
theorem storeAll_eq {entries : List (ConfirmationTarget × UInt32)} (h : Complete fees)
    (hd : (entries.map Prod.fst).Nodup) {entry : ConfirmationTarget × UInt32}
    (hentry : entry ∈ entries) : storeAll fees entries entry.1 = some entry.2 := by
  induction entries generalizing fees with
  | nil => exact nomatch hentry
  | cons first entries ih =>
      obtain ⟨hfirst, hd⟩ := List.nodup_cons.mp hd
      rcases List.mem_cons.mp hentry with rfl | hentry
      · have hrest : storeAll (storeFee fees entry.1 entry.2) entries entry.1 =
            storeFee fees entry.1 entry.2 entry.1 := storeAll_other hfirst
        exact hrest.trans ((storeFee_eq h entry.2 entry.1).trans (if_pos rfl))
      · exact ih (storeFee_complete h first.1 first.2) hd hentry

theorem mem_stores (estimates : Estimate → UInt32) (target : ConfirmationTarget) :
    (target, storedValue estimates target) ∈ stores estimates := by
  cases target <;> simp [stores, storedValue, behind]

theorem stores_nodup (estimates : Estimate → UInt32) :
    ((stores estimates).map Prod.fst).Nodup := by
  show [ConfirmationTarget.maximumFeeEstimate, .urgentOnChainSweep,
    .minAllowedAnchorChannelRemoteFee, .minAllowedNonAnchorChannelRemoteFee, .anchorChannelFee,
    .nonAnchorChannelFee, .channelCloseMinimum, .outputSpendingFee].Nodup
  decide

/-- **ONE ROUND**: every bucket holds what is stored in it. -/
theorem pollRound_eq (h : Complete fees) (answers : Answers) (target : ConfirmationTarget) :
    pollRound fees answers target = some (storedValue (estimates answers fees) target) :=
  storeAll_eq h (stores_nodup _) (mem_stores _ target)

/-! ## Over all rounds -/

theorem pollRounds_concat (rounds : List Answers) (answers : Answers) :
    pollRounds (rounds ++ [answers]) = pollRound (pollRounds rounds) answers :=
  List.foldl_concat _ _ _ _

/-- The map keeps all its keys over any rounds. -/
theorem pollRounds_complete (rounds : List Answers) : Complete (pollRounds rounds) := by
  induction rounds using List.reverseRecOn with
  | nil =>
      intro target
      cases target <;> rfl
  | append_singleton rounds answers ih =>
      rw [pollRounds_concat]
      exact storeAll_complete ih _

/-- The buckets of one estimate agree with the one that is read back, and the bucket
    with the offset does so after the first round. -/
structure Mirrored (started : Bool) (fees : Fees) : Prop where
  same : ∀ target, target ≠ .minAllowedNonAnchorChannelRemoteFee →
    fees target = fees (behind target).previous
  offset : started = true → fees .minAllowedNonAnchorChannelRemoteFee =
    (fees .anchorChannelFee).map fun value => saturatingSub value 250

/-- The bucket that an estimate falls back to is its own. -/
theorem behind_previous (target : ConfirmationTarget) :
    behind (behind target).previous = behind target := by
  cases target <;> rfl

/-- No estimate falls back to the bucket that is kept below the floor. -/
theorem previous_ne (e : Estimate) : e.previous ≠ .minAllowedNonAnchorChannelRemoteFee := by
  cases e <;> decide

/-- After a round each bucket is the estimate behind it. -/
theorem pollRound_mirrored (h : Complete fees) (answers : Answers) :
    Mirrored true (pollRound fees answers) := by
  constructor
  · intro target hne
    rw [pollRound_eq h, pollRound_eq h, storedValue, if_neg hne, storedValue,
      if_neg (previous_ne _), behind_previous]
  · intro _
    rw [pollRound_eq h, pollRound_eq h]
    rfl

theorem pollRounds_mirrored (rounds : List Answers) :
    Mirrored (!rounds.isEmpty) (pollRounds rounds) := by
  rcases List.eq_nil_or_concat rounds with rfl | ⟨earlier, answers, rfl⟩
  · constructor
    · intro target _
      cases target <;> rfl
    · intro h
      exact absurd h Bool.false_ne_true
  · rw [List.concat_eq_append, pollRounds_concat]
    have h := pollRound_mirrored (pollRounds_complete earlier) answers
    exact ⟨h.same, fun _ => h.offset rfl⟩

/-! ## The floor -/

/-- Every bucket but the one with the offset is at least `MIN_FEERATE`. -/
def Floored (fees : Fees) : Prop :=
  ∀ target, target ≠ .minAllowedNonAnchorChannelRemoteFee →
    minFeerate ≤ getEstSatPer1000Weight fees target

/-- The bucket that an error falls back to is one of them. -/
theorem estimate_floored (h : Floored fees) (e : Estimate) (answer : RpcAnswer) :
    minFeerate ≤ estimate fees e answer := by
  cases answer with
  | feerate satPerKw =>
      show minFeerate ≤ if satPerKw ≤ minFeerate then minFeerate else satPerKw
      by_cases hle : satPerKw ≤ minFeerate
      · rw [if_pos hle]
        exact UInt32.le_refl minFeerate
      · rw [if_neg hle]
        exact UInt32.le_of_lt (UInt32.not_le.mp hle)
  | noEstimate =>
      show minFeerate ≤ e.fallbackWhenNone
      cases e <;> decide
  | error => exact h e.previous (previous_ne e)

/-- A value over the floor keeps the map over it. -/
theorem storeFee_floored (h : Floored fees) {value : UInt32}
    (hvalue : target = .minAllowedNonAnchorChannelRemoteFee ∨ minFeerate ≤ value) :
    Floored (storeFee fees target value) := by
  intro other hne
  by_cases heq : other = target
  · have hle : minFeerate ≤ value := hvalue.resolve_left fun h => hne (heq.trans h)
    simp only [getEstSatPer1000Weight, storeFee, if_pos heq]
    cases fees target with
    | none => exact UInt32.le_refl minFeerate
    | some old => exact hle
  · simp only [getEstSatPer1000Weight, storeFee, if_neg heq]
    exact h other hne

theorem storeAll_floored {entries : List (ConfirmationTarget × UInt32)} (h : Floored fees)
    (hentries : ∀ entry ∈ entries,
      entry.1 = .minAllowedNonAnchorChannelRemoteFee ∨ minFeerate ≤ entry.2) :
    Floored (storeAll fees entries) := by
  induction entries generalizing fees with
  | nil => exact h
  | cons entry entries ih =>
      exact ih (storeFee_floored h (hentries entry List.mem_cons_self))
        (fun e he => hentries e (List.mem_cons_of_mem _ he))

/-- Estimates over the floor store values over it, but for the one bucket. -/
theorem stores_floored {estimates : Estimate → UInt32} (h : ∀ e, minFeerate ≤ estimates e) :
    ∀ entry ∈ stores estimates,
      entry.1 = .minAllowedNonAnchorChannelRemoteFee ∨ minFeerate ≤ entry.2 := by
  simp [stores, h]

/-- The map is over the floor after any rounds. -/
theorem pollRounds_floored (rounds : List Answers) : Floored (pollRounds rounds) := by
  induction rounds using List.reverseRecOn with
  | nil =>
      intro target _
      cases target <;> decide
  | append_singleton rounds answers ih =>
      rw [pollRounds_concat]
      exact storeAll_floored ih (stores_floored fun e => estimate_floored ih e _)

/-! ## A failed call -/

/-- A failed call leaves the buckets of its estimate as they were, and a round in which
    all calls fail changes no bucket. -/
def KeepsPrevious (fees : Fees) (answers : Answers) : Prop :=
  (∀ target, answers (behind target).call = .error →
    pollRound fees answers target = fees target) ∧
  ((∀ call, answers call = .error) → pollRound fees answers = fees)

/-- A call that fails gives the value of the bucket it falls back to. -/
theorem estimates_error (h : Complete fees) (herror : answers e.call = .error) :
    some (estimates answers fees e) = fees e.previous := by
  obtain ⟨value, hvalue⟩ := Option.isSome_iff_exists.mp (h e.previous)
  rw [estimates, herror, estimate, getEstSatPer1000Weight, hvalue]
  rfl

/-- It does so in a state whose buckets agree, for every bucket but the one with the
    offset, and for that one too if it agrees. -/
theorem keeps_bucket {started : Bool} (h : Complete fees) (hm : Mirrored started fees)
    (hoffset : started = true ∨ target ≠ .minAllowedNonAnchorChannelRemoteFee)
    (herror : answers (behind target).call = .error) :
    pollRound fees answers target = fees target := by
  have hest := estimates_error h herror
  rw [pollRound_eq h]
  by_cases heq : target = .minAllowedNonAnchorChannelRemoteFee
  · subst heq
    have hstarted := hoffset.resolve_right (not_not.mpr rfl)
    have hvalue : some (estimates answers fees .background) = fees .anchorChannelFee := hest
    rw [hm.offset hstarted, ← hvalue]
    rfl
  · rw [storedValue, if_neg heq, hest, ← hm.same target heq]

/-- What is asked bucket by bucket is what a failed poll should keep. -/
theorem keepsPrevious_of_buckets
    (h : ∀ target, answers (behind target).call = .error →
      pollRound fees answers target = fees target) : KeepsPrevious fees answers :=
  ⟨h, fun hall => funext fun target => h target (hall _)⟩

/-- A first round in which the background call fails lowers the bucket with the offset:
    `new` puts 253 there, and the round 253 - 250. -/
theorem first_round_lowers (herror : answers Estimate.background.call = .error) :
    pollRound initialFees answers .minAllowedNonAnchorChannelRemoteFee = some 3 := by
  have h : Complete initialFees := pollRounds_complete []
  have hvalue : estimates answers initialFees .background = minFeerate :=
    Option.some.inj (estimates_error h herror)
  rw [pollRound_eq h, storedValue, if_pos rfl, hvalue]
  rfl

/-- **WHEN A FAILED POLL KEEPS THE PREVIOUS VALUES**: after any rounds, exactly when one
    has been made, or the background call does not fail in this first one. -/
theorem failed_poll_keeps_iff (rounds : List Answers) (answers : Answers) :
    KeepsPrevious (pollRounds rounds) answers ↔
      rounds ≠ [] ∨ answers (.estimatesmartfee 144 "ECONOMICAL") ≠ .error := by
  have hcomplete := pollRounds_complete rounds
  have hmirrored := pollRounds_mirrored rounds
  constructor
  · intro hkeeps
    by_contra hcondition
    simp only [not_or, not_not] at hcondition
    obtain ⟨rfl, herror⟩ := hcondition
    have hkept := hkeeps.1 .minAllowedNonAnchorChannelRemoteFee herror
    -- the first round lowers a bucket whose call fails
    have hlowered := first_round_lowers herror
    exact absurd (hlowered.symm.trans hkept) (by decide)
  · intro hcondition
    refine keepsPrevious_of_buckets fun target herror =>
      keeps_bucket hcomplete hmirrored ?_ herror
    rcases hcondition with hrounds | hbackground
    · left
      cases rounds with
      | nil => exact absurd rfl hrounds
      | cons answers rounds => rfl
    · right
      rintro rfl
      exact hbackground herror

/-- In the first round all calls fail: a bucket changes. -/
theorem first_failed_poll_changes : ¬ KeepsPrevious (pollRounds []) fun _ => .error := by
  intro hkeeps
  have hkept := hkeeps.1 .minAllowedNonAnchorChannelRemoteFee rfl
  exact absurd hkept (by decide)

end FeeBuckets
