import Scorer.ManagerBookProofs
import Scorer.PaymentRefineProofs

/-! # A failed payment is not in flight

    Two steps mark a record `Failed` in a running process: the `PaymentFailed` arm
    and the error branch of `send_payment` and `keysend`.  The error branch cannot
    tell a payment that never started from the duplicate of one that runs, and the
    arm not whether the id has been paid again since.  A start-up marks the pending
    records that the `ChannelManager` does not remember, and reads a file that a
    crash may have left behind: so the law is kept for the store, for the file and
    for every write that may still land (`Lasting`), and a restart finds it again
    (`failed_not_in_flight`). -/

namespace FailedFlight

open LabelledRun WriteOrder LockedStore PaymentStore PaymentSend PaymentWrite
open PaymentNode PaymentRefine ManagerBook

variable {β : Type} {E : NodeEnv β} {s t : Node β} {a : NodeAction} {id : PaymentId}

/-- The store has no record of `id` that says `Failed`. -/
def NotFailed (id : PaymentId) (m : OutboundPaymentInfoStorage) : Prop :=
  statusOf m id ≠ some .failed

/-- The payment of a send command that has recorded it and has no answer yet. -/
def unansweredId : Task → Option PaymentId
  | .recording plan _ => some plan.paymentId
  | .calling plan _ => some plan.paymentId
  | _ => none

/-- The payments that wait for the answer of the manager. -/
def unansweredIds (s : Node β) : List PaymentId := s.tasks.filterMap unansweredId

/-- The payment whose record the event marks `Failed`. -/
def failedId : PaymentEvent → Option PaymentId
  | .paymentFailed paymentId => some paymentId
  | _ => none

/-- A record is marked `Failed`, by an error branch or by a `PaymentFailed`, only when
    no send command on it waits for its answer and no payment of it is in flight. -/
def FailsApart (s : Node β) : NodeAction → Prop
  | .markRejected k =>
      ∀ id ∈ s.tasks[k]?.bind sendingId, id ∉ unansweredIds s ∧ id ∉ s.manager.inFlight
  | .handle j => ∀ id ∈ s.manager.events[j]?.bind failedId,
      id ∉ unansweredIds s ∧ id ∉ s.manager.inFlight
  | _ => True

instance failsApartDecidable (s : Node β) : (a : NodeAction) → Decidable (FailsApart s a)
  | .markRejected k => inferInstanceAs (Decidable (∀ id ∈ s.tasks[k]?.bind sendingId, _))
  | .handle j => inferInstanceAs (Decidable (∀ id ∈ s.manager.events[j]?.bind failedId, _))
  | .send _ | .getInvoice _ _ | .resume _ | .accept _ | .reject _ | .settleInbound _ _
  | .settleOutbound _ _ | .emit _ | .forget _ | .crash | .boot _ _ | .started =>
      inferInstanceAs (Decidable True)

/-! ## The invariant -/

/-- What a send command relies on until its answer. -/
def TaskUnfailed (g : Guarded OutboundPaymentInfoStorage β TaskId) : Task → Prop
  | .recording plan w => HoldsFrom (NotFailed plan.paymentId) g w
  | .calling plan w => HoldsFrom (NotFailed plan.paymentId) g w ∧ Landed g w
  | _ => True

/-- What holds in every state of such a run: a payment in flight, and one whose answer is
    awaited, has no failed record, now or after the writes that are under way. -/
structure Unfailed (E : NodeEnv β) (s : Node β) : Prop where
  refined : Refined E s
  remembered : Remembered s
  flying : ∀ id ∈ s.manager.inFlight, Lasting E.cOut (NotFailed id) s.outbound
  tasks : ∀ u ∈ s.tasks, TaskUnfailed s.outbound u

/-- A task keeps what it relies on through a change that spares its payment. -/
private theorem taskUnfailed_effect {u : Task}
    (he : Effect E.cOut applyOutbound s.outbound t.outbound)
    (hmem : ∀ id, unansweredId u = some id → NotFailed id s.outbound.mem →
      NotFailed id t.outbound.mem)
    (hu : TaskUnfailed s.outbound u) : TaskUnfailed t.outbound u := by
  have hkeep {id : PaymentId} (hid : unansweredId u = some id) {w : Nat}
      (hP : HoldsFrom (NotFailed id) s.outbound w) : HoldsFrom (NotFailed id) t.outbound w := by
    refine holdsFrom_effect he (fun m heq => ?_) hP
    have hm : t.outbound.mem = applyOutbound m s.outbound.mem := congrArg Guarded.mem heq
    rw [← hm]
    exact hmem id hid hP.mem
  cases u with
  | recording plan w => exact hkeep rfl hu
  | calling plan w => exact ⟨hkeep rfl hu.1, landed_effect he hu.2⟩
  | rejected plan => trivial
  | marking w => trivial
  | invoicing w => trivial
  | handlingInbound ev w => trivial
  | handlingOutbound ev w => trivial
  | finished => trivial

/-- A move that keeps the process alive: its change spares the payments in flight
    and those without an answer, its new tasks and its new payments have the
    invariant. -/
private theorem unfailed_of_effect (hs : Unfailed E s) (ht : Refined E t) (hb : Remembered t)
    (he : Effect E.cOut applyOutbound s.outbound t.outbound)
    (hmem : ∀ id, id ∈ s.manager.inFlight ∨ id ∈ unansweredIds s →
      NotFailed id s.outbound.mem → NotFailed id t.outbound.mem)
    (htasks : ∀ u ∈ t.tasks, u ∈ s.tasks ∨ TaskUnfailed t.outbound u)
    (hfly : ∀ id ∈ t.manager.inFlight, id ∈ s.manager.inFlight ∨
      Lasting E.cOut (NotFailed id) t.outbound) : Unfailed E t where
  refined := ht
  remembered := hb
  flying := by
    intro id hid
    rcases hfly id hid with hold | hnew
    · have hP := hs.flying id hold
      refine lasting_effect (node_coherent hs.refined).2.1 he (fun m heq => ?_) hP
      have hm : t.outbound.mem = applyOutbound m s.outbound.mem := congrArg Guarded.mem heq
      rw [← hm]
      exact hmem id (Or.inl hold) hP.mem
    · exact hnew
  tasks := by
    intro u hu
    rcases htasks u hu with hold | hnew
    · refine taskUnfailed_effect he (fun id hid => ?_) (hs.tasks u hold)
      exact hmem id (Or.inr (List.mem_filterMap.mpr ⟨u, hold, hid⟩))
    · exact hnew

/-- A move that leaves the outbound store alone. -/
private theorem unfailed_of_same (hs : Unfailed E s) (ht : Refined E t) (hb : Remembered t)
    (hout : t.outbound = s.outbound)
    (htasks : ∀ u ∈ t.tasks, u ∈ s.tasks ∨ TaskUnfailed s.outbound u)
    (hfly : ∀ id ∈ t.manager.inFlight, id ∈ s.manager.inFlight ∨
      Lasting E.cOut (NotFailed id) s.outbound) : Unfailed E t := by
  refine unfailed_of_effect hs ht hb (.same hout) ?_ ?_ ?_
  · rw [hout]
    exact fun _ _ h => h
  · rw [hout]
    exact htasks
  · rw [hout]
    exact hfly

private theorem notFailed_setFailed {m : OutboundPaymentInfoStorage} {k : PaymentId}
    (hne : id ≠ k) (h : NotFailed id m) : NotFailed id (setFailed k m) := by
  rw [NotFailed, statusOf_setFailed, if_neg hne]
  exact h

/-- The events: `PaymentFailed` fails a record that is not in flight, and the others fail
    none. -/
theorem handleEvent_unfailed {j : Nat} {ev : PaymentEvent} (hs : Unfailed E s)
    (hg : FailsApart s (.handle j)) (hj : s.manager.events[j]? = some ev)
    (ht : Refined E (handleEvent E s j ev)) (hb : Remembered (handleEvent E s j ev)) :
    Unfailed E (handleEvent E s j ev) := by
  cases ev with
  | paymentClaimed h purpose amt =>
      exact unfailed_of_same hs ht hb rfl (fun u hu => task_of_push hu trivial)
        (fun id hid => Or.inl hid)
  | paymentSent paymentId p =>
      cases paymentId with
      | none =>
          exact unfailed_of_same hs ht hb rfl (fun u hu => Or.inl hu)
            (fun id hid => Or.inl hid)
      | some k =>
          refine unfailed_of_effect hs ht hb (.changed (.paymentSent k p) rfl) ?_
            (fun u hu => task_of_push hu trivial) (fun id hid => Or.inl hid)
          intro id _ hP
          rw [show (handleEvent E s j (.paymentSent (some k) p)).outbound.mem
            = paymentSent k p s.outbound.mem from rfl, NotFailed, statusOf_paymentSent]
          split
          · rename_i heq
            cases statusOf s.outbound.mem id with
            | none => exact fun h => nomatch h
            | some st => exact fun h => nomatch h
          · exact hP
  | paymentFailed k =>
      refine unfailed_of_effect hs ht hb (.changed (.paymentFailed k) rfl) ?_
        (fun u hu => task_of_push hu trivial) (fun id hid => Or.inl hid)
      intro id hid hP
      refine notFailed_setFailed ?_ hP
      have hapart := hg k (by rw [hj]; rfl)
      rintro rfl
      exact hid.elim hapart.2 hapart.1

/-- A crash drops the tasks, and reads back what the writes have left. -/
theorem powerOff_unfailed (hs : Unfailed E s) (ht : Refined E (powerOff s))
    (hb : Remembered (powerOff s)) : Unfailed E (powerOff s) where
  refined := ht
  remembered := hb
  flying := fun id hid => lasting_opened (fun h => nomatch h) (hs.flying id hid).file
  tasks := fun _ hu => nomatch hu

/-- A start-up marks no remembered payment, and its file is not rewritten yet. -/
theorem startUp_unfailed {rIn rOut : Bool} (hs : Unfailed E s)
    (ht : Refined E (startUp E s rIn rOut)) (hb : Remembered (startUp E s rIn rOut)) :
    Unfailed E (startUp E s rIn rOut) where
  refined := ht
  remembered := hb
  flying := by
    intro id hid
    have hold := hs.flying id hid
    have hread : NotFailed id (readPaymentInfo E.cOut rOut (content s.outbound.file)) := by
      rcases readPaymentInfo_cases E.cOut rOut (content s.outbound.file) with hempty | hdec
      · rw [hempty]
        exact fun h => nomatch h
      · exact hold.file _ hdec
    have hrec : NotFailed id (reconcile s.manager.recentPayments
        (readPaymentInfo E.cOut rOut (content s.outbound.file))) := by
      -- the payment is remembered, so the start-up does not mark it
      have hrecent := hs.remembered id hid
      intro h
      rw [statusOf_reconcile] at h
      obtain ⟨st, hst, hif⟩ := Option.map_eq_some_iff.mp h
      rw [if_neg (fun hstale => hstale.2 hrecent)] at hif
      subst hif
      exact hread hst
    exact lasting_critical (f := fun m => m) (opened_coherent _ _)
      (lasting_opened hrec hold.file) hrec
  tasks := fun _ hu => nomatch hu

/-- One move of the node, arm by arm. -/
theorem move_unfailed (hs : Unfailed E s) (hg : FailsApart s a) (hm : Move E s a t) :
    Unfailed E t := by
  have ht : Refined E t := move_refined hs.refined hm
  have hb : Remembered t := move_remembered hs.remembered hm
  cases hm with
  | refused cmd => exact hs
  | @recorded cmd plan hrun hplan =>
      have hmem : ∀ id, NotFailed id s.outbound.mem →
          NotFailed id (recordSend E s plan).outbound.mem := by
        intro id hP
        rw [show (recordSend E s plan).outbound.mem
          = recordPending plan.paymentId plan.info s.outbound.mem from rfl, NotFailed,
          statusOf_recordPending, (planSend_pending hplan).1]
        split
        · exact fun h => nomatch h
        · exact hP
      refine unfailed_of_effect hs ht hb (.changed (.recordPending _ _) rfl)
        (fun id _ => hmem id) ?_ (fun id hid => Or.inl hid)
      refine fun u hu => task_of_push hu (holdsFrom_new ?_)
      rw [applyOutbound, NotFailed, statusOf_recordPending, if_pos rfl,
        (planSend_pending hplan).1]
      exact fun h => nomatch h
  | invoiced hrun =>
      exact unfailed_of_same hs ht hb rfl (fun u hu => task_of_push hu trivial)
        (fun id hid => Or.inl hid)
  | @resumed k u u' hrun hk hu =>
      refine unfailed_of_same hs ht hb rfl ?_ (fun id hid => Or.inl hid)
      refine fun v hv => task_of_set hv ?_
      cases resumeTask_resumed hu with
      | @recorded plan w hok =>
          have hl : Landed s.outbound w := landed_of_outcome hs.refined hok
          exact ⟨hs.tasks _ (List.mem_of_getElem? hk), hl⟩
      | unrecorded hok => trivial
      | ended hid => trivial
  | @accepted k w plan hrun hk hnew =>
      refine unfailed_of_same hs ht hb rfl (fun u hu => task_of_set hu trivial) ?_
      intro id hid
      rcases List.mem_cons.mp hid with rfl | hold
      · -- the record is on disk and was not marked since
        obtain ⟨hP, hl⟩ := hs.tasks _ (List.mem_of_getElem? hk)
        exact Or.inr (lasting_of_landed (node_coherent hs.refined).2.1 hP hl)
      · exact Or.inl hold
  | @rejected k w plan hrun hk =>
      refine unfailed_of_same hs ht hb rfl (fun u hu => task_of_set hu ?_)
        (fun id hid => Or.inl hid)
      cases marksRejection plan.call <;> trivial
  | @marked k plan hrun hk =>
      refine unfailed_of_effect hs ht hb (.changed (.sendRejected _) rfl) ?_
        (fun u hu => task_of_set hu trivial) (fun id hid => Or.inl hid)
      intro id hid hP
      have hapart := hg plan.paymentId (by rw [hk]; rfl)
      refine notFailed_setFailed ?_ hP
      rintro rfl
      exact hid.elim hapart.2 hapart.1
  | settledInbound hset =>
      exact unfailed_of_same hs ht hb rfl (fun u hu => Or.inl hu) (fun id hid => Or.inl hid)
  | @settledOutbound i ok g hset =>
      refine unfailed_of_effect hs ht hb (.settled i ok hset) ?_ (fun u hu => Or.inl hu)
        (fun id hid => Or.inl hid)
      obtain ⟨f, -, rfl⟩ := settleWrite_cases hset
      exact fun _ _ h => h
  | emitted hup hev =>
      exact unfailed_of_same hs ht hb rfl (fun u hu => Or.inl hu)
        (fun id hid => Or.inl (List.mem_filter.mp hid).1)
  | handled hrun hj => exact handleEvent_unfailed hs hg hj ht hb
  | forgotten hup hdone =>
      exact unfailed_of_same hs ht hb rfl (fun u hu => Or.inl hu) (fun id hid => Or.inl hid)
  | crashed hup => exact powerOff_unfailed hs ht hb
  | booted hdown => exact startUp_unfailed hs ht hb
  | started hstart hok =>
      exact unfailed_of_same hs ht hb rfl (fun u hu => Or.inl hu) (fun id hid => Or.inl hid)
  | startFailed hstart hok => exact powerOff_unfailed hs ht hb

/-! ## The law of failed records -/

/-- A new node has nothing in flight. -/
theorem newNode_unfailed : Unfailed E (newNode β) where
  refined := offNode_refined none none _
  remembered := fun _ hid => nomatch hid
  flying := fun _ hid => nomatch hid
  tasks := fun _ hu => nomatch hu

/-- **FAILED MEANS NOT IN FLIGHT**: as long as no step marks a record whose payment
    runs or is being asked for, no payment in flight has a `Failed` record, through
    crashes and restarts. -/
theorem failed_not_in_flight (s : Node β) (id : PaymentId)
    (hs : Reach (step E) FailsApart (newNode β) s) (hfly : id ∈ s.manager.inFlight) :
    statusOf s.outbound.mem id ≠ some .failed := by
  have hun : Unfailed E s := by
    refine reach_invariant (fun u a v hI hg hst => ?_) hs newNode_unfailed
    exact move_unfailed hI hg (step_move hst)
  exact (hun.flying id hfly).mem

/-- A first start-up, and `sendpayment` of an invoice that the `ChannelManager`
    accepts. -/
def invoiceRun : List NodeAction :=
  firstBoot ++ ([.send (.sendPayment (invoiceOf 1) none), .settleOutbound 1 true, .resume 0,
    .accept 0] : List NodeAction)

/-- A payment that is in flight when the process dies. -/
theorem failed_not_in_flight_restartRun :
    ∃ s : Node OutboundPaymentInfoStorage,
      Reach (step plainEnv) FailsApart (newNode _) s ∧ s.phase = .running ∧
      Vector.replicate 32 1 ∈ s.manager.inFlight ∧
      statusOf s.outbound.mem (Vector.replicate 32 1) ≠ some .failed := by
  obtain ⟨s, hs, hcheck⟩ := reach_of_check (newNode OutboundPaymentInfoStorage)
    (step plainEnv) FailsApart
    (invoiceRun ++ ([.crash] : List NodeAction) ++ firstBoot)
    (fun s => decide (s.phase = .running) &&
      decide (Vector.replicate 32 1 ∈ s.manager.inFlight))
    (by decide +kernel)
  obtain ⟨hrun, hfly⟩ := Bool.and_eq_true _ _ |>.mp hcheck
  have hmem := of_decide_eq_true hfly
  exact ⟨s, hs, of_decide_eq_true hrun, hmem, failed_not_in_flight s _ hs hmem⟩

/-- **THE DUPLICATE**: `sendpayment` of an invoice whose payment runs is rejected,
    and its error branch marks the running payment `Failed`. -/
theorem duplicate_marks_running_payment :
    ¬ ∀ (s : Node OutboundPaymentInfoStorage) (id : PaymentId),
      Reach (step plainEnv) Retained (newNode _) s → id ∈ s.manager.inFlight →
      statusOf s.outbound.mem id ≠ some .failed := by
  intro hall
  obtain ⟨s, hs, hcheck⟩ := reach_of_check (newNode OutboundPaymentInfoStorage)
    (step plainEnv) Retained
    (invoiceRun ++ ([.send (.sendPayment (invoiceOf 1) none), .settleOutbound 2 true,
      .resume 1, .reject 1, .markRejected 1] : List NodeAction))
    (fun s => decide (Vector.replicate 32 1 ∈ s.manager.inFlight) &&
      decide (statusOf s.outbound.mem (Vector.replicate 32 1) = some .failed))
    (by decide +kernel)
  obtain ⟨hfly, hfailed⟩ := Bool.and_eq_true _ _ |>.mp hcheck
  exact hall s _ hs (of_decide_eq_true hfly) (of_decide_eq_true hfailed)

end FailedFlight
