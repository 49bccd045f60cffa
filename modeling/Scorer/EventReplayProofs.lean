import Scorer.PaymentNodeProofs
import Scorer.ReplayProofs

/-! # Events that are handled again

    An event that was handled and not yet persisted by LDK is delivered again after
    a restart, when the start-up code has reconciled the outbound store.  For one
    record the last event of each kind decides, and of an amount the first, so any
    suffix of the events may come again. -/

namespace EventReplay

open PaymentStore PaymentWrite PaymentNode Replay

/-- The two maps in memory. -/
structure PaymentStores where
  inbound  : InboundPaymentInfoStorage
  outbound : OutboundPaymentInfoStorage

/-- What the arm of an event does to the stores. -/
def handlePaymentEvent (ev : PaymentEvent) (st : PaymentStores) : PaymentStores :=
  match eventChange ev with
  | none => st
  | some (.inl m) => { st with inbound := applyInbound m st.inbound }
  | some (.inr m) => { st with outbound := applyOutbound m st.outbound }

/-- What the start-up code does to the stores it has read. -/
def reconcileStores (recentPayments : List PaymentId) (st : PaymentStores) :
    PaymentStores :=
  { st with outbound := reconcile recentPayments st.outbound }

/-- The two maps of a node. -/
def memoryOf {β : Type} (s : Node β) : PaymentStores := ⟨s.inbound.mem, s.outbound.mem⟩

/-- The running node handles an event so. -/
theorem memoryOf_handleEvent {β : Type} (E : NodeEnv β) (s : Node β) (j : Nat)
    (ev : PaymentEvent) :
    memoryOf (handleEvent E s j ev) = handlePaymentEvent ev (memoryOf s) := by
  rw [handleEvent, handlePaymentEvent]
  cases eventChange ev with
  | none => rfl
  | some m =>
      cases m with
      | inl m => rfl
      | inr m => rfl

/-! ## One inbound record -/

/-- The claim of the hash that an event reports. -/
def claimOf (a : PaymentHash) : PaymentEvent → Option (PaymentPurpose × UInt64)
  | .paymentClaimed h purpose amountMsat => if h = a then some (purpose, amountMsat) else none
  | .paymentSent _ _ => none
  | .paymentFailed _ => none

/-- What a claim makes of the record of its hash. -/
def claimRecord (claim : PaymentPurpose × UInt64) (r : Option PaymentInfo) :
    Option PaymentInfo :=
  some (claimedInfo claim.1 claim.2 r)

/-- The purpose is that of the last claim; the amount stays. -/
theorem claimRecord_overriding :
    Overriding claimRecord fun r : Option PaymentInfo => r.isSome where
  enters := fun _ _ => rfl
  again := fun _ _ => rfl
  later := by
    intro claim claim' r hr
    obtain ⟨payment, rfl⟩ := Option.isSome_iff_exists.mp hr
    rfl

/-- An event reaches one inbound record at most, and by `claimRecord`. -/
theorem inbound_handled (a : PaymentHash) (ev : PaymentEvent) (st : PaymentStores) :
    (handlePaymentEvent ev st).inbound[a]? =
      ((claimOf a ev).map fun claim => claimRecord claim st.inbound[a]?).getD
        st.inbound[a]? := by
  cases ev with
  | paymentClaimed h purpose amt =>
      show (paymentClaimed h purpose amt st.inbound)[a]? = _
      rw [paymentClaimed_get, claimOf]
      by_cases ha : a = h
      · rw [if_pos ha, if_pos ha.symm, ha]
        rfl
      · rw [if_neg ha, if_neg (Ne.symm ha)]
        rfl
  | paymentSent id pre =>
      cases id with
      | none => rfl
      | some id => rfl
  | paymentFailed id => rfl

/-! ## One outbound record -/

/-- How an event ends the payment: with its preimage, or with a failure. -/
def endOf (a : PaymentId) : PaymentEvent → Option (Option PaymentPreimage)
  | .paymentClaimed _ _ _ => none
  | .paymentSent none _ => none
  | .paymentSent (some id) pre => if id = a then some (some pre) else none
  | .paymentFailed id => if id = a then some none else none

/-- What the end of a payment makes of its record. -/
def endPayment : Option PaymentPreimage → PaymentInfo → PaymentInfo
  | some pre, payment => { payment with preimage := some pre, status := .succeeded }
  | none, payment => { payment with status := .failed }

/-- The same where there may be no record. -/
def endRecord (ending : Option PaymentPreimage) (r : Option PaymentInfo) :
    Option PaymentInfo :=
  r.map (endPayment ending)

/-- No record, or one that the reconciliation leaves. -/
def Ended (r : Option PaymentInfo) : Prop := ∀ payment ∈ r, payment.status ≠ .pending

/-- A payment that has ended is not pending. -/
theorem endPayment_ended (ending : Option PaymentPreimage) (payment : PaymentInfo) :
    (endPayment ending payment).status ≠ .pending := by
  cases ending with
  | none => exact HTLCStatus.noConfusion
  | some pre => exact HTLCStatus.noConfusion

/-- The status is that of the last event, the preimage that of the last success. -/
theorem endRecord_overriding : Overriding endRecord Ended where
  enters := by
    intro ending r payment hp
    obtain ⟨old, -, rfl⟩ := Option.map_eq_some_iff.mp hp
    exact endPayment_ended ending old
  again := by
    intro ending r
    cases r with
    | none => rfl
    | some payment =>
        cases ending with
        | none => rfl
        | some pre => rfl
  later := by
    intro ending between r _
    cases r with
    | none => rfl
    | some payment =>
        cases ending with
        | none => cases between <;> rfl
        | some pre => cases between <;> rfl

/-- An ending of the payment `id`, seen at `a`. -/
private theorem ended_at (a id : PaymentId) (ending : Option PaymentPreimage)
    (r : Option PaymentInfo) : (if a = id then endRecord ending r else r) =
      ((if id = a then some ending else none).map fun e => endRecord e r).getD r := by
  by_cases ha : a = id
  · rw [if_pos ha, if_pos ha.symm]
    rfl
  · rw [if_neg ha, if_neg (Ne.symm ha)]
    rfl

/-- An event reaches one outbound record at most, and by `endRecord`. -/
theorem outbound_handled (a : PaymentId) (ev : PaymentEvent) (st : PaymentStores) :
    (handlePaymentEvent ev st).outbound[a]? =
      ((endOf a ev).map fun ending => endRecord ending st.outbound[a]?).getD
        st.outbound[a]? := by
  cases ev with
  | paymentClaimed h purpose amt => rfl
  | paymentSent id pre =>
      cases id with
      | none => rfl
      | some id =>
          show (paymentSent id pre st.outbound)[a]? = _
          rw [paymentSent_get, endOf]
          exact ended_at a id (some pre) _
  | paymentFailed id =>
      show (setFailed id st.outbound)[a]? = _
      rw [setFailed_get, endOf]
      exact ended_at a id none _

/-- The reconciliation leaves a record that an event has ended. -/
theorem reconcile_ended {recent : List PaymentId} {outbound : OutboundPaymentInfoStorage}
    {a : PaymentId} (h : Ended outbound[a]?) :
    (reconcile recent outbound)[a]? = outbound[a]? := by
  rw [reconcile_get]
  cases hr : outbound[a]? with
  | none => rfl
  | some payment =>
      rw [hr] at h
      exact congrArg some (if_neg fun hp => h payment rfl hp.1)

/-! ## The replay -/

variable {es s : List PaymentEvent}

/-- The inbound half: each record was already as the last claim leaves it. -/
theorem replay_inbound (hs : s <:+ es) (recent : List PaymentId) (st : PaymentStores)
    (a : PaymentHash) :
    (run handlePaymentEvent s
        (reconcileStores recent (run handlePaymentEvent es st))).inbound[a]? =
      (run handlePaymentEvent es st).inbound[a]? := by
  have hview := run_view (fun st : PaymentStores => st.inbound[a]?) (inbound_handled a)
  rw [hview]
  show run claimRecord (s.filterMap (claimOf a)) (run handlePaymentEvent es st).inbound[a]? = _
  rw [hview]
  exact run_suffix claimRecord_overriding (hs.filterMap _) _

/-- The outbound half: the start has not reached what the events decide. -/
theorem replay_outbound (hs : s <:+ es) (recent : List PaymentId) (st : PaymentStores)
    (a : PaymentId) :
    (run handlePaymentEvent s
        (reconcileStores recent (run handlePaymentEvent es st))).outbound[a]? =
      (reconcile recent (run handlePaymentEvent es st).outbound)[a]? := by
  have hview := run_view (fun st : PaymentStores => st.outbound[a]?) (outbound_handled a)
  rw [hview]
  show run endRecord (s.filterMap (endOf a))
    (reconcile recent (run handlePaymentEvent es st).outbound)[a]? = _
  have hsuffix : s.filterMap (endOf a) <:+ es.filterMap (endOf a) := hs.filterMap _
  by_cases hnone : s.filterMap (endOf a) = []
  · -- no event of this payment comes again
    rw [hnone]
    rfl
  · have hsome : es.filterMap (endOf a) ≠ [] := by
      intro hnil
      rw [hnil] at hsuffix
      exact hnone (List.suffix_nil.mp hsuffix)
    -- an event of this payment has ended its record, so the reconciliation leaves it
    have hended : Ended (run handlePaymentEvent es st).outbound[a]? := by
      rw [hview]
      exact run_enters endRecord_overriding hsome _
    rw [reconcile_ended hended, hview]
    exact run_suffix endRecord_overriding hsuffix _

/-- **A REPLAY CHANGES NOTHING**: events that come again after the reconciliation, as
    any suffix of what was handled before it, leave both stores as they are. -/
theorem replay_changes_nothing (hs : s <:+ es) (recentPayments : List PaymentId)
    (st : PaymentStores) :
    run handlePaymentEvent s (reconcileStores recentPayments (run handlePaymentEvent es st)) =
      reconcileStores recentPayments (run handlePaymentEvent es st) := by
  have hin := Std.ExtTreeMap.ext_getElem? (replay_inbound hs recentPayments st)
  have hout := Std.ExtTreeMap.ext_getElem? (replay_outbound hs recentPayments st)
  calc run handlePaymentEvent s (reconcileStores recentPayments (run handlePaymentEvent es st))
      = ⟨(run handlePaymentEvent es st).inbound,
          reconcile recentPayments (run handlePaymentEvent es st).outbound⟩ := by
        rw [← hin, ← hout]
    _ = reconcileStores recentPayments (run handlePaymentEvent es st) := rfl

/-- A failure and a claim come again, after a success of the same payment. -/
theorem replay_changes_nothing_failed :
    let id : PaymentId := Vector.replicate 32 1
    let claimed : PaymentEvent := .paymentClaimed id (.spontaneousPayment id) 1000
    let es : List PaymentEvent := [.paymentSent (some id) id, .paymentFailed id, claimed]
    let st : PaymentStores := ⟨∅, recordPending id ⟨none, none, .pending, ⟨some 1000⟩⟩ ∅⟩
    run handlePaymentEvent [.paymentFailed id, claimed]
        (reconcileStores [] (run handlePaymentEvent es st)) =
      reconcileStores [] (run handlePaymentEvent es st) := by
  intro id claimed es st
  exact replay_changes_nothing ⟨[.paymentSent (some id) id], rfl⟩ [] st

end EventReplay
