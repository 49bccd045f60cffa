import Scorer.ManagerBookProofs
import Scorer.PaymentRefineProofs

/-! # What a payment record can say

    Only three writers touch an inbound record and four an outbound one, and none
    of them leaves it half filled in: a `Pending` record has no preimage yet, a
    `Succeeded` one has it, no inbound record is `Failed` and no record is without
    an amount.  For an inbound record the preimage is the one that the
    `PaymentClaimable` arm claimed with, so it is a preimage of the record's key.

    * `InboundShape`, `OutboundShape`: what the records of the two stores say;
    * `records_keep_shape`: they say nothing else in any run, through crashes and
      restarts, in memory, in the files and in the writes that may still land. -/

namespace RecordShape

open LabelledRun WriteOrder LockedStore PaymentStore PaymentSend PaymentWrite
open PaymentNode PaymentRefine ManagerBook

variable {β : Type} {E : NodeEnv β} {s t : Node β} {a : NodeAction}

/-! ## The `PaymentClaimable` arm -/

/-- The preimage that the arm calls `claim_funds` with; without one it only prints
    an error. -/
def claimFunds : PaymentPurpose → Option PaymentPreimage
  | .bolt11InvoicePayment paymentPreimage _ => paymentPreimage
  | .bolt12OfferPayment paymentPreimage _ => paymentPreimage
  | .bolt12RefundPayment paymentPreimage _ => paymentPreimage
  | .spontaneousPayment preimage => some preimage

/-- The arm of `PaymentClaimed` takes the same preimage out of the purpose. -/
theorem claimedParts_preimage (purpose : PaymentPurpose) :
    (claimedParts purpose).1 = claimFunds purpose := by
  cases purpose <;> rfl

/-- A payment is claimed only by a preimage of its hash, and only if the
    `PaymentClaimable` arm called `claim_funds` with it. -/
def ClaimedByArm (sha256 : Bytes32 → Bytes32) : PaymentEvent → Prop
  | .paymentClaimed paymentHash purpose _ =>
      (claimFunds purpose).map sha256 = some paymentHash
  | _ => True

instance claimedByArmDecidable (sha256 : Bytes32 → Bytes32) :
    (ev : PaymentEvent) → Decidable (ClaimedByArm sha256 ev)
  | .paymentClaimed paymentHash purpose _ =>
      inferInstanceAs (Decidable ((claimFunds purpose).map sha256 = some paymentHash))
  | .paymentSent _ _ | .paymentFailed _ => inferInstanceAs (Decidable True)

/-- The runs in which the `ChannelManager` claims nothing on its own. -/
def ClaimsByArm (E : NodeEnv β) : Node β → NodeAction → Prop
  | _, .emit ev => ClaimedByArm E.sha256 ev
  | _, _ => True

instance claimsByArmDecidable (s : Node β) : (a : NodeAction) → Decidable (ClaimsByArm E s a)
  | .emit ev => inferInstanceAs (Decidable (ClaimedByArm E.sha256 ev))
  | .send _ | .getInvoice _ _ | .resume _ | .accept _ | .reject _ | .markRejected _
  | .settleInbound _ _ | .settleOutbound _ _ | .handle _ | .forget _ | .crash
  | .boot _ _ | .started =>
      inferInstanceAs (Decidable True)

/-! ## The two shapes -/

/-- An inbound record under the payment hash `h`. -/
structure InboundShape (sha256 : Bytes32 → Bytes32) (h : PaymentHash)
    (info : PaymentInfo) : Prop where
  amount : info.amtMsat.msat.isSome
  pending : info.status = .pending → info.preimage = none
  succeeded : info.status = .succeeded → info.preimage.map sha256 = some h
  notFailed : info.status ≠ .failed

/-- An outbound record. -/
structure OutboundShape (info : PaymentInfo) : Prop where
  amount : info.amtMsat.msat.isSome
  pending : info.status = .pending → info.preimage = none
  succeeded : info.status = .succeeded → info.preimage.isSome

/-- All records of an inbound store have their shape. -/
def InboundShaped (sha256 : Bytes32 → Bytes32) (m : InboundPaymentInfoStorage) : Prop :=
  ∀ (h : PaymentHash) (info : PaymentInfo), m[h]? = some info → InboundShape sha256 h info

/-- Every outbound record has the shape of one that the node makes. -/
def OutboundShaped (m : OutboundPaymentInfoStorage) : Prop :=
  ∀ (id : PaymentId) (info : PaymentInfo), m[id]? = some info → OutboundShape info

/-- An empty store has no record of another shape. -/
theorem inboundShaped_empty (sha256 : Bytes32 → Bytes32) : InboundShaped sha256 ∅ := by
  intro h info hget
  rw [Std.ExtTreeMap.getElem?_empty] at hget
  cases hget

theorem outboundShaped_empty : OutboundShaped ∅ := by
  intro id info hget
  rw [Std.ExtTreeMap.getElem?_empty] at hget
  cases hget

/-! ## One lemma for each writer -/

section Writers

variable {sha256 : Bytes32 → Bytes32} {inbound : InboundPaymentInfoStorage}
  {outbound : OutboundPaymentInfoStorage}

/-- A claim makes a record of the shape; its preimage hashes to the key. -/
theorem shaped_paymentClaimed {h : PaymentHash} {purpose : PaymentPurpose} {amt : UInt64}
    (hclaim : (claimFunds purpose).map sha256 = some h)
    (hm : InboundShaped sha256 inbound) :
    InboundShaped sha256 (paymentClaimed h purpose amt inbound) := by
  intro k info hget
  rw [paymentClaimed_get] at hget
  by_cases hk : k = h
  · rw [if_pos hk] at hget
    obtain rfl := Option.some.inj hget
    refine ⟨?_, fun hst => (nomatch hst), fun _ => ?_, fun hst => nomatch hst⟩
    · -- the record keeps its amount, a new one takes the event's
      cases hold : inbound[h]? with
      | none => rfl
      | some old => exact (hm h old hold).amount
    · rw [hk, ← hclaim, ← claimedParts_preimage]
      rfl
  · rw [if_neg hk] at hget
    exact hm k info hget

/-- An invoice makes a pending one with its secret. -/
theorem shaped_getInvoice {amt : UInt64} {created : Option CreatedInvoice}
    (hm : InboundShaped sha256 inbound) :
    InboundShaped sha256 (getInvoice amt created inbound) := by
  cases created with
  | none => exact hm
  | some invoice =>
      intro k info hget
      rw [getInvoice, insert_get] at hget
      by_cases hk : k = invoice.paymentHash
      · rw [if_pos hk] at hget
        obtain rfl := Option.some.inj hget
        exact ⟨rfl, fun _ => rfl, fun hst => (nomatch hst), fun hst => nomatch hst⟩
      · rw [if_neg hk] at hget
        exact hm k info hget

/-- What is recorded has the shape. -/
theorem shaped_recordPending {id : PaymentId} {info : PaymentInfo}
    (hinfo : OutboundShape info) (hm : OutboundShaped outbound) :
    OutboundShaped (recordPending id info outbound) := by
  intro k info' hget
  rw [recordPending_get] at hget
  by_cases hk : k = id
  · rw [if_pos hk] at hget
    obtain rfl := Option.some.inj hget
    exact hinfo
  · rw [if_neg hk] at hget
    exact hm k info' hget

/-- A record that becomes `Failed` may keep whatever preimage it has. -/
private theorem shape_failed {info : PaymentInfo} (h : OutboundShape info) :
    OutboundShape { info with status := .failed } :=
  ⟨h.amount, fun hst => (nomatch hst), fun hst => nomatch hst⟩

/-- A failure changes the status only. -/
theorem shaped_setFailed {id : PaymentId} (hm : OutboundShaped outbound) :
    OutboundShaped (setFailed id outbound) := by
  intro k info hget
  rw [setFailed_get] at hget
  by_cases hk : k = id
  · rw [if_pos hk] at hget
    obtain ⟨old, hold, rfl⟩ := Option.map_eq_some_iff.mp hget
    exact shape_failed (hm k old hold)
  · rw [if_neg hk] at hget
    exact hm k info hget

/-- A success brings the preimage along. -/
theorem shaped_paymentSent {id : PaymentId} {pre : PaymentPreimage}
    (hm : OutboundShaped outbound) : OutboundShaped (paymentSent id pre outbound) := by
  intro k info hget
  rw [paymentSent_get] at hget
  by_cases hk : k = id
  · rw [if_pos hk] at hget
    obtain ⟨old, hold, rfl⟩ := Option.map_eq_some_iff.mp hget
    exact ⟨(hm k old hold).amount, fun hst => (nomatch hst), fun _ => rfl⟩
  · rw [if_neg hk] at hget
    exact hm k info hget

/-- A start changes no more than a failure does. -/
theorem shaped_reconcile (recent : List PaymentId) (hm : OutboundShaped outbound) :
    OutboundShaped (reconcile recent outbound) := by
  intro k info hget
  rw [reconcile_get] at hget
  obtain ⟨old, hold, rfl⟩ := Option.map_eq_some_iff.mp hget
  by_cases hfail : old.status = .pending ∧ k ∉ recent
  · rw [if_pos hfail]
    exact shape_failed (hm k old hold)
  · rw [if_neg hfail]
    exact hm k old hold

/-- Whatever the path, the record inserted has an amount. -/
theorem planSend_amount {cmd : SendCommand} {plan : SendPlan}
    (h : planSend sha256 cmd = .ok plan) : plan.info.amtMsat.msat.isSome := by
  cases cmd with
  | sendPayment invoice req =>
      simp only [planSend, sendPayment] at h
      grind [pendingInfo]
  | keysend amt random =>
      obtain rfl := Except.ok.inj h
      rfl
  | payOffer offerAmt userAmt answers random =>
      simp only [planSend, payOffer] at h
      grind [pendingInfo]
  | payHumanReadableName userAmt resolvers random =>
      simp only [planSend, payHumanReadableName] at h
      grind [pendingInfo]

/-- Every send path inserts a record of the shape. -/
theorem planSend_shape {cmd : SendCommand} {plan : SendPlan}
    (h : planSend sha256 cmd = .ok plan) : OutboundShape plan.info := by
  obtain ⟨hst, hpre⟩ := planSend_pending h
  exact ⟨planSend_amount h, fun _ => hpre, fun hs => nomatch hst.symm.trans hs⟩

end Writers

/-! ## Where the events come from -/

private theorem mem_undelivered {ev : PaymentEvent} :
    ev ∈ undelivered s ↔
      (∃ u ∈ s.tasks, unacknowledged u = some ev) ∨ ev ∈ s.manager.events := by
  rw [undelivered, List.mem_append, List.mem_filterMap]

/-- A task that has no event in hand. -/
private abbrev Unheld (u : Task) : Prop := unacknowledged u = none

/-- A move that leaves the queue alone and starts no handler. -/
private theorem undelivered_of_task {ev : PaymentEvent} (hev : ev ∈ undelivered t)
    (hman : t.manager.events = s.manager.events)
    (htasks : ∀ u ∈ t.tasks, u ∈ s.tasks ∨ Unheld u) :
    ev ∈ undelivered s := by
  rcases mem_undelivered.mp hev with ⟨u, hu, hack⟩ | hq
  · rcases htasks u hu with hold | hnone
    · exact mem_undelivered.mpr (Or.inl ⟨u, hold, hack⟩)
    · cases hnone.symm.trans hack
  · exact mem_undelivered.mpr (Or.inr (hman ▸ hq))

/-- A handler that starts has in hand what it took from the queue. -/
private theorem undelivered_of_take {ev ev' : PaymentEvent} {j : Nat}
    (hev : ev ∈ undelivered t) (hj : s.manager.events[j]? = some ev')
    (hman : t.manager.events = s.manager.events.eraseIdx j)
    (htasks : ∀ u ∈ t.tasks, u ∈ s.tasks ∨ unacknowledged u = some ev') :
    ev ∈ undelivered s := by
  rcases mem_undelivered.mp hev with ⟨u, hu, hack⟩ | hq
  · rcases htasks u hu with hold | hnew
    · exact mem_undelivered.mpr (Or.inl ⟨u, hold, hack⟩)
    · obtain rfl := Option.some.inj (hnew.symm.trans hack)
      exact mem_undelivered.mpr (Or.inr (List.mem_of_getElem? hj))
  · rw [hman] at hq
    exact mem_undelivered.mpr (Or.inr ((List.eraseIdx_sublist _ _).subset hq))

/-- Every undelivered event was emitted and has been undelivered since. -/
theorem undelivered_move {ev : PaymentEvent} (hm : Move E s a t)
    (hev : ev ∈ undelivered t) : ev ∈ undelivered s ∨ a = .emit ev := by
  cases hm with
  | refused cmd => exact Or.inl hev
  | recorded hrun hplan =>
      exact Or.inl (undelivered_of_task hev rfl fun u hu => task_of_push (P := Unheld) hu rfl)
  | invoiced hrun =>
      exact Or.inl (undelivered_of_task hev rfl fun u hu => task_of_push (P := Unheld) hu rfl)
  | resumed hrun hk ht =>
      have hnone := resumeTask_unacknowledged ht
      exact Or.inl (undelivered_of_task hev rfl fun u hu => task_of_set (P := Unheld) hu hnone)
  | accepted hrun hk hnew =>
      exact Or.inl (undelivered_of_task hev rfl fun u hu => task_of_set (P := Unheld) hu rfl)
  | @rejected k w plan hrun hk =>
      refine Or.inl (undelivered_of_task hev rfl fun u hu => task_of_set (P := Unheld) hu ?_)
      cases marksRejection plan.call <;> rfl
  | marked hrun hk =>
      exact Or.inl (undelivered_of_task hev rfl fun u hu => task_of_set (P := Unheld) hu rfl)
  | settledInbound hset => exact Or.inl hev
  | settledOutbound hset => exact Or.inl hev
  | @emitted ev' hup hfly =>
      rcases mem_undelivered.mp hev with htask | hq
      · exact Or.inl (mem_undelivered.mpr (Or.inl htask))
      · rcases List.mem_append.mp hq with hold | hnew
        · exact Or.inl (mem_undelivered.mpr (Or.inr hold))
        · exact Or.inr (by rw [List.mem_singleton.mp hnew])
  | @handled j ev' hrun hj =>
      refine Or.inl ?_
      revert hev
      rw [handleEvent]
      split
      · exact fun hev => undelivered_of_take hev hj rfl fun u hu => Or.inl hu
      · exact fun hev => undelivered_of_take hev hj rfl fun u hu =>
          task_of_push (P := fun u => unacknowledged u = some ev') hu rfl
      · exact fun hev => undelivered_of_take hev hj rfl fun u hu =>
          task_of_push (P := fun u => unacknowledged u = some ev') hu rfl
  -- the events survive the process, in the file of the manager
  | forgotten hup hdone => exact Or.inl hev
  | crashed hup => exact Or.inl (by simpa [undelivered, powerOff] using hev)
  | booted hdown =>
      refine Or.inl (mem_undelivered.mpr (Or.inr ?_))
      simpa [undelivered, startUp] using hev
  | started hstart hok => exact Or.inl hev
  | startFailed hstart hok => exact Or.inl (by simpa [undelivered, powerOff] using hev)

/-! ## The invariant of the node -/

/-- Both stores have their shapes, in memory, in their files and in the writes that
    may still land, and so has every claim that may still be handled. -/
structure Shaped (E : NodeEnv β) (s : Node β) : Prop where
  refined : Refined E s
  inbound : Lasting E.cIn (InboundShaped E.sha256) s.inbound
  outbound : Lasting E.cOut OutboundShaped s.outbound
  events : ∀ ev ∈ undelivered s, ClaimedByArm E.sha256 ev

/-- A start-up reads a shaped store out of a shaped file, or starts empty. -/
private theorem read_shaped {c : Codec (Std.ExtTreeMap Bytes32 PaymentInfo) β}
    {P : Std.ExtTreeMap Bytes32 PaymentInfo → Prop} (hempty : P ∅) (readable : Bool)
    {file : Option β} (hfile : ∀ m, file.bind c.decode = some m → P m) :
    P (readPaymentInfo c readable file) := by
  rcases readPaymentInfo_cases c readable file with hnone | hsome
  · rw [hnone]
    exact hempty
  · exact hfile _ hsome

/-- A crash leaves what the writes may leave, and that has the shape. -/
theorem powerOff_lasting (hs : Shaped E s) :
    Lasting E.cIn (InboundShaped E.sha256) (powerOff s).inbound ∧
      Lasting E.cOut OutboundShaped (powerOff s).outbound :=
  ⟨lasting_opened (inboundShaped_empty _) hs.inbound.file,
    lasting_opened outboundShaped_empty hs.outbound.file⟩

/-- A start reads records of the shape, or none. -/
theorem startUp_lasting (hs : Shaped E s) (rIn rOut : Bool) :
    Lasting E.cIn (InboundShaped E.sha256) (startUp E s rIn rOut).inbound ∧
      Lasting E.cOut OutboundShaped (startUp E s rIn rOut).outbound := by
  have hin := read_shaped (inboundShaped_empty E.sha256) rIn hs.inbound.file
  have hout := read_shaped outboundShaped_empty rOut hs.outbound.file
  have hmem := shaped_reconcile s.manager.recentPayments hout
  refine ⟨lasting_opened hin hs.inbound.file, ?_⟩
  -- the start-up write is a critical section that changes nothing
  exact lasting_critical (f := id) (opened_coherent _ _)
    (lasting_opened hmem hs.outbound.file) hmem

/-- One move keeps both shapes. -/
theorem move_shaped (hs : Shaped E s) (hg : ClaimsByArm E s a) (hm : Move E s a t) :
    Shaped E t := by
  have href := move_refined hs.refined hm
  obtain ⟨hcIn, hcOut, -, -⟩ := node_coherent hs.refined
  have hev : ∀ ev ∈ undelivered t, ClaimedByArm E.sha256 ev := by
    intro ev hmem
    rcases undelivered_move hm hmem with hold | rfl
    · exact hs.events ev hold
    · exact hg
  cases hm with
  | recorded hrun hplan =>
      exact ⟨href, hs.inbound, lasting_critical hcOut hs.outbound
        (shaped_recordPending (planSend_shape hplan) hs.outbound.mem), hev⟩
  | invoiced hrun =>
      exact ⟨href, lasting_critical hcIn hs.inbound (shaped_getInvoice hs.inbound.mem),
        hs.outbound, hev⟩
  | marked hrun hk =>
      exact ⟨href, hs.inbound,
        lasting_critical hcOut hs.outbound (shaped_setFailed hs.outbound.mem), hev⟩
  | settledInbound hset =>
      exact ⟨href, lasting_settle hcIn hs.inbound hset, hs.outbound, hev⟩
  | settledOutbound hset =>
      exact ⟨href, hs.inbound, lasting_settle hcOut hs.outbound hset, hev⟩
  | @handled j ev hrun hj =>
      -- the event was undelivered, so its claim is the arm's
      have hclaim := hs.events ev (mem_undelivered.mpr (Or.inr (List.mem_of_getElem? hj)))
      cases ev with
      | paymentClaimed h purpose amt =>
          exact ⟨href, lasting_critical hcIn hs.inbound
            (shaped_paymentClaimed hclaim hs.inbound.mem), hs.outbound, hev⟩
      | paymentSent paymentId pre =>
          cases paymentId with
          | none => exact ⟨href, hs.inbound, hs.outbound, hev⟩
          | some id =>
              exact ⟨href, hs.inbound,
                lasting_critical hcOut hs.outbound (shaped_paymentSent hs.outbound.mem), hev⟩
      | paymentFailed id =>
          exact ⟨href, hs.inbound,
            lasting_critical hcOut hs.outbound (shaped_setFailed hs.outbound.mem), hev⟩
  | crashed hup => exact ⟨href, (powerOff_lasting hs).1, (powerOff_lasting hs).2, hev⟩
  | startFailed hstart hok =>
      exact ⟨href, (powerOff_lasting hs).1, (powerOff_lasting hs).2, hev⟩
  | @booted rIn rOut hdown =>
      exact ⟨href, (startUp_lasting hs rIn rOut).1, (startUp_lasting hs rIn rOut).2, hev⟩
  | _ => exact ⟨href, hs.inbound, hs.outbound, hev⟩

/-! ## The law -/

/-- What a store and its file say at one point of a run. -/
def SaysOnly {σ : Type} (c : Codec σ β) (P : σ → Prop) (g : Guarded σ β TaskId) : Prop :=
  P g.mem ∧ ∀ m, (content g.file).bind c.decode = some m → P m

/-- **RECORD SHAPE**: from files with records of these shapes, no run of commands,
    events, write failures, crashes and restarts leads to a `Succeeded` inbound
    record without the preimage of its hash, to a `Failed` one, to a `Succeeded`
    outbound record without its preimage, to a `Pending` record with one, or to a
    record without an amount: neither in memory nor in a file. -/
theorem records_keep_shape (inFile outFile : Option β) (manager : ChannelManager)
    (hin : ∀ m, inFile.bind E.cIn.decode = some m → InboundShaped E.sha256 m)
    (hout : ∀ m, outFile.bind E.cOut.decode = some m → OutboundShaped m)
    (hev : ∀ ev ∈ manager.events, ClaimedByArm E.sha256 ev)
    (h : Reach (step E) (ClaimsByArm E) (offNode inFile outFile manager) s) :
    SaysOnly E.cIn (InboundShaped E.sha256) s.inbound ∧
      SaysOnly E.cOut OutboundShaped s.outbound := by
  have h₀ : Shaped E (offNode inFile outFile manager) :=
    ⟨offNode_refined inFile outFile manager,
      lasting_opened (inboundShaped_empty _) hin, lasting_opened outboundShaped_empty hout,
      fun ev hmem => hev ev hmem⟩
  have hs : Shaped E s :=
    reach_invariant (fun _ _ _ hI hg hst => move_shaped hI hg (step_move hst)) h h₀
  exact ⟨⟨hs.inbound.mem, hs.inbound.file⟩, hs.outbound.mem, hs.outbound.file⟩

/-- A first start-up, an invoice that is claimed and a keysend that is paid, each
    write completed; then a crash. -/
def claimRun : List NodeAction :=
  firstBoot ++ ([.getInvoice 1000 (some ⟨Vector.replicate 32 2, Vector.replicate 32 0⟩),
    .settleInbound 0 true,
    .emit (.paymentClaimed (Vector.replicate 32 2)
      (.bolt11InvoicePayment (some (Vector.replicate 32 2)) (Vector.replicate 32 0)) 1000),
    .handle 0, .settleInbound 1 true,
    .send (.keysend 1000 (Vector.replicate 32 7)), .settleOutbound 1 true, .resume 2,
    .accept 2, .emit (.paymentSent (some (Vector.replicate 32 7)) (Vector.replicate 32 7)),
    .handle 0, .settleOutbound 2 true, .crash] : List NodeAction)

/-- A payment that is received and one that is sent. -/
theorem records_keep_shape_claimRun :
    ∃ s : Node OutboundPaymentInfoStorage,
      Reach (step plainEnv) (ClaimsByArm plainEnv) (newNode _) s ∧
      statusOf ((content s.inbound.file).getD ∅) (Vector.replicate 32 2)
        = some .succeeded ∧
      statusOf ((content s.outbound.file).getD ∅) (Vector.replicate 32 7)
        = some .succeeded ∧
      SaysOnly plainEnv.cIn (InboundShaped plainEnv.sha256) s.inbound ∧
      SaysOnly plainEnv.cOut OutboundShaped s.outbound := by
  obtain ⟨s, hs, hcheck⟩ := reach_of_check (newNode OutboundPaymentInfoStorage)
    (step plainEnv) (ClaimsByArm plainEnv) claimRun
    (fun s => decide (statusOf ((content s.inbound.file).getD ∅) (Vector.replicate 32 2)
        = some .succeeded) &&
      decide (statusOf ((content s.outbound.file).getD ∅) (Vector.replicate 32 7)
        = some .succeeded))
    (by decide +kernel)
  obtain ⟨hin, hout⟩ := Bool.and_eq_true _ _ |>.mp hcheck
  exact ⟨s, hs, of_decide_eq_true hin, of_decide_eq_true hout,
    records_keep_shape none none ⟨[], [], []⟩ (fun _ hm => nomatch hm)
      (fun _ hm => nomatch hm) (fun _ hev => nomatch hev) hs⟩

end RecordShape
