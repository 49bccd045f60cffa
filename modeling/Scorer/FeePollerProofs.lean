import Scorer.FeeBucketsProofs
import Scorer.LabelledRunProofs

/-! # The poller between its stores

    The fee estimator reads the buckets at any moment, also while the poller waits for
    an answer and between two of its stores.

    * `step` takes the poller from one such moment to the next;
    * `reach_underway`: every moment lies in a round that follows whole rounds;
    * `fee_floor`: at every moment the floor holds, and after each round the buckets of
      the background estimate agree. -/

namespace FeePoller

open LabelledRun FeeBuckets

/-! ## The poller -/

/-- The calls of a round, in order. -/
def calls : List Estimate := [.mempoolmin, .background, .normal, .highPrio, .veryHighPrio]

/-- Where the poller is: at a call, with the estimates made so far, before a store, or
    after the last one. -/
inductive Phase where
  | calling (pending : List Estimate) (estimates : Estimate → UInt32)
  | storing (pending : List (ConfirmationTarget × UInt32))
  | sleeping

/-- The map, and where the task is in its loop. -/
structure Poller where
  fees  : Fees
  phase : Phase

/-- What can happen: an answer comes, a value is stored, the sleep ends. -/
inductive PollAction where
  | answer (answer : RpcAnswer)
  | store
  | wake

/-- A round begins with all its calls to make. -/
def startRound : Phase := .calling calls fun _ => 0

/-- `poll_for_fee_estimates`, when it is spawned. -/
def newPoller : Poller := ⟨initialFees, startRound⟩

/-- One move of the task; the map may be read between any two. -/
def step (s : Poller) : PollAction → Option Poller
  | .answer answer =>
      match s.phase with
      | .calling (e :: pending) estimates =>
          let estimates := Function.update estimates e (estimate s.fees e answer)
          some { s with phase :=
            if pending.isEmpty then .storing (stores estimates)
            else .calling pending estimates }
      | _ => none
  | .store =>
      match s.phase with
      | .storing ((target, value) :: pending) =>
          some ⟨storeFee s.fees target value,
            if pending.isEmpty then .sleeping else .storing pending⟩
      | _ => none
  | .wake =>
      match s.phase with
      | .sleeping => some { s with phase := startRound }
      | _ => none

/-! ## Moments of a round -/

/-- After whole rounds, the poller has made some of the calls, or some of the stores
    that the answers lead to, or all of them. -/
inductive Underway : Poller → Prop where
  | calling (rounds : List Answers) (answers : Answers) (made pending : List Estimate)
      (estimates : Estimate → UInt32) (hcalls : made ++ pending = calls)
      (hmade : ∀ e ∈ made, estimates e = FeeBuckets.estimates answers (pollRounds rounds) e) :
      Underway ⟨pollRounds rounds, .calling pending estimates⟩
  | storing (rounds : List Answers) (answers : Answers)
      (made pending : List (ConfirmationTarget × UInt32))
      (hstores : made ++ pending = stores (estimates answers (pollRounds rounds))) :
      Underway ⟨storeAll (pollRounds rounds) made, .storing pending⟩
  | sleeping (rounds : List Answers) (hrounds : rounds ≠ []) :
      Underway ⟨pollRounds rounds, .sleeping⟩

/-- No two estimates share a call. -/
theorem call_inj {e e' : Estimate} (h : e.call = e'.call) : e = e' := by
  cases e <;> cases e' <;> first | rfl | exact absurd h (by decide)

theorem mem_calls (e : Estimate) : e ∈ calls := by
  cases e <;> decide

/-- An answer to one call leaves the estimates of the others. -/
theorem estimates_update {answers : Answers} {fees : Fees} {e other : Estimate}
    (hne : other ≠ e) (answer : RpcAnswer) :
    estimates (Function.update answers e.call answer) fees other =
      estimates answers fees other := by
  rw [estimates, Function.update_of_ne (fun h => hne (call_inj h)), estimates]

/-- The next call of a round; after the last one the estimates are those of the answers. -/
theorem answer_underway {rounds : List Answers} {answers : Answers} {made pending : List Estimate}
    {e : Estimate} {est est' : Estimate → UInt32} {answer : RpcAnswer}
    (hcalls : made ++ e :: pending = calls)
    (hmade : ∀ other ∈ made, est other = estimates answers (pollRounds rounds) other)
    (hest' : est' = Function.update est e (estimate (pollRounds rounds) e answer)) :
    Underway ⟨pollRounds rounds,
      if pending.isEmpty then .storing (stores est') else .calling pending est'⟩ := by
  -- the answer just given changes its own estimate only
  have hupdated : ∀ other ∈ made ++ [e],
      est' other = estimates (Function.update answers e.call answer) (pollRounds rounds)
        other := by
    intro other hother
    by_cases heq : other = e
    · subst heq
      rw [hest', Function.update_self, estimates, Function.update_self]
    · have hold : other ∈ made := by
        rcases List.mem_append.mp hother with h | h
        · exact h
        · exact absurd (List.mem_singleton.mp h) heq
      rw [hest', Function.update_of_ne heq, hmade other hold, estimates_update heq]
  cases pending with
  | nil =>
      -- the last call: every estimate is now the one of an answer
      have hall : est' = estimates (Function.update answers e.call answer)
          (pollRounds rounds) := by
        funext other
        exact hupdated other (hcalls ▸ mem_calls other)
      exact Underway.storing rounds _ [] _ (congrArg stores hall)
  | cons next pending =>
      exact Underway.calling rounds _ (made ++ [e]) _ _
        ((List.append_cons _ _ _).symm.trans hcalls) hupdated

/-- The next store of a round; the last one ends it. -/
theorem store_underway {rounds : List Answers} {answers : Answers}
    {made pending : List (ConfirmationTarget × UInt32)} {entry : ConfirmationTarget × UInt32}
    (hstores : made ++ entry :: pending = stores (estimates answers (pollRounds rounds))) :
    Underway ⟨storeFee (storeAll (pollRounds rounds) made) entry.1 entry.2,
      if pending.isEmpty then .sleeping else .storing pending⟩ := by
  rw [← storeAll_concat]
  cases pending with
  | nil =>
      have hround : storeAll (pollRounds rounds) (made ++ [entry]) =
          pollRounds (rounds ++ [answers]) := by
        rw [hstores, pollRounds_concat]
        rfl
      rw [hround]
      exact Underway.sleeping _ (List.append_ne_nil_of_right_ne_nil _ (List.cons_ne_nil _ _))
  | cons next pending =>
      exact Underway.storing rounds answers _ _
        ((List.append_cons _ _ _).symm.trans hstores)

/-- A move stays within the round that whole rounds have led to. -/
theorem step_underway {s t : Poller} {a : PollAction} (h : Underway s)
    (hstep : step s a = some t) : Underway t := by
  cases h with
  | calling rounds answers made pending est hcalls hmade =>
      cases a with
      | answer answer =>
          cases pending with
          | nil => cases hstep
          | cons e pending =>
              obtain rfl := Option.some.inj hstep
              exact answer_underway hcalls hmade rfl
      | store => cases hstep
      | wake => cases hstep
  | storing rounds answers made pending hstores =>
      cases a with
      | answer answer => cases hstep
      | store =>
          cases pending with
          | nil => cases hstep
          | cons entry pending =>
              obtain rfl := Option.some.inj hstep
              exact store_underway hstores
      | wake => cases hstep
  | sleeping rounds hrounds =>
      cases a with
      | answer answer => cases hstep
      | store => cases hstep
      | wake =>
          obtain rfl := Option.some.inj hstep
          exact Underway.calling rounds (fun _ => .error) [] calls _ rfl (by rintro _ ⟨⟩)

/-- **EVERY MOMENT IS IN A ROUND**. -/
theorem reach_underway {s : Poller} (h : Reach step anyStep newPoller s) : Underway s :=
  reach_invariant (fun _ _ _ hs _ hstep => step_underway hs hstep) h
    (Underway.calling [] (fun _ => .error) [] calls _ rfl (by rintro _ ⟨⟩))

/-! ## The floor -/

/-- So the map is over the floor at every point, not only between rounds. -/
theorem underway_floored {s : Poller} (h : Underway s) : Floored s.fees := by
  cases h with
  | calling rounds _ _ _ _ _ _ => exact pollRounds_floored rounds
  | storing rounds answers made pending hstores =>
      have hfloored := pollRounds_floored rounds
      have hentries := stores_floored fun e => estimate_floored hfloored e (answers e.call)
      refine storeAll_floored hfloored fun entry he => hentries entry ?_
      exact (congrArg (entry ∈ ·) hstores).mp (List.mem_append_left _ he)
  | sleeping rounds _ => exact pollRounds_floored rounds

/-- A caller sees a bucket through its value. -/
theorem getEst_of_eq {fees : Fees} {target other : ConfirmationTarget}
    (h : fees target = fees other) :
    getEstSatPer1000Weight fees target = getEstSatPer1000Weight fees other := by
  rw [getEstSatPer1000Weight, h, getEstSatPer1000Weight]

/-- With the floor the offset does not saturate. -/
theorem offset_exact {rounds : List Answers} (hrounds : rounds ≠ []) :
    (getEstSatPer1000Weight (pollRounds rounds)
        .minAllowedNonAnchorChannelRemoteFee).toNat + 250 =
      (getEstSatPer1000Weight (pollRounds rounds) .anchorChannelFee).toNat := by
  obtain ⟨value, hvalue⟩ :=
    Option.isSome_iff_exists.mp (pollRounds_complete rounds .anchorChannelFee)
  have hfloor := pollRounds_floored rounds .anchorChannelFee (by decide)
  have hoffset := (pollRounds_mirrored rounds).offset (by
    cases rounds with
    | nil => exact absurd rfl hrounds
    | cons answers rounds => rfl)
  rw [getEstSatPer1000Weight, hvalue, Option.getD_some] at hfloor
  rw [hvalue, Option.map_some] at hoffset
  rw [getEstSatPer1000Weight, getEstSatPer1000Weight, hvalue, hoffset, Option.getD_some,
    Option.getD_some]
  have hle : 253 ≤ value.toNat := UInt32.le_iff_toNat_le.mp hfloor
  have hnot : ¬ value < 250 := fun hlt => by
    have := UInt32.lt_iff_toNat_lt.mp hlt
    have h250 : (250 : UInt32).toNat = 250 := rfl
    omega
  rw [saturatingSub, if_neg hnot, UInt32.toNat_sub_of_le _ _ (UInt32.not_lt.mp hnot)]
  have h250 : (250 : UInt32).toNat = 250 := rfl
  omega

/-- **THE FEE FLOOR**: at every moment of every run the floor holds, and after every
    round the buckets of the background estimate agree. -/
theorem fee_floor {s : Poller} (h : Reach step anyStep newPoller s) :
    (∀ target, target ≠ .minAllowedNonAnchorChannelRemoteFee →
      minFeerate ≤ getEstSatPer1000Weight s.fees target) ∧
    (s.phase = .sleeping →
      getEstSatPer1000Weight s.fees .channelCloseMinimum =
        getEstSatPer1000Weight s.fees .anchorChannelFee ∧
      getEstSatPer1000Weight s.fees .outputSpendingFee =
        getEstSatPer1000Weight s.fees .anchorChannelFee ∧
      (getEstSatPer1000Weight s.fees .minAllowedNonAnchorChannelRemoteFee).toNat + 250 =
        (getEstSatPer1000Weight s.fees .anchorChannelFee).toNat) := by
  have hunderway := reach_underway h
  refine ⟨underway_floored hunderway, fun hsleeping => ?_⟩
  cases hunderway with
  | calling _ _ _ _ _ _ _ => exact nomatch hsleeping
  | storing _ _ _ _ _ => exact nomatch hsleeping
  | sleeping rounds hrounds =>
      have hmirrored := pollRounds_mirrored rounds
      exact ⟨getEst_of_eq (hmirrored.same _ (by decide)),
        getEst_of_eq (hmirrored.same _ (by decide)), offset_exact hrounds⟩

/-- A first round in which all calls fail. -/
theorem fee_floor_failedRound : ∃ s, Reach step anyStep newPoller s ∧ s.phase = .sleeping ∧
    (∀ target, target ≠ .minAllowedNonAnchorChannelRemoteFee →
      minFeerate ≤ getEstSatPer1000Weight s.fees target) ∧
    getEstSatPer1000Weight s.fees .channelCloseMinimum =
      getEstSatPer1000Weight s.fees .anchorChannelFee ∧
    getEstSatPer1000Weight s.fees .outputSpendingFee =
      getEstSatPer1000Weight s.fees .anchorChannelFee ∧
    (getEstSatPer1000Weight s.fees .minAllowedNonAnchorChannelRemoteFee).toNat + 250 =
      (getEstSatPer1000Weight s.fees .anchorChannelFee).toNat := by
  obtain ⟨s, hreach, hcheck⟩ := reach_of_check newPoller step anyStep
    (List.replicate 5 (.answer .error) ++ List.replicate 8 .store)
    (fun s => match s.phase with | .sleeping => true | _ => false) (by decide)
  have hsleeping : s.phase = .sleeping := by
    cases hphase : s.phase with
    | sleeping => rfl
    | _ => rw [hphase] at hcheck; cases hcheck
  obtain ⟨hfloor, hagree⟩ := fee_floor hreach
  exact ⟨s, hreach, hsleeping, hfloor, hagree hsleeping⟩

end FeePoller
