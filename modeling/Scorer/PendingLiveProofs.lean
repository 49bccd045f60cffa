import Scorer.PaymentNodeProofs
import Scorer.ManagerBookProofs

/-! # A pending payment is a live one

    A record is `Pending` from the insert of a send command on.  What ends that is
    a terminal event, or the error branch of the command.  Two ends of a command
    leave the record behind: the first write of any path fails, or the
    `ChannelManager` rejects an offer or a human-readable name.  The start-up code
    repairs a stale record unless `list_recent_payments` still names its id.
    Between these three, every pending record has a live payment
    (`pending_is_live`). -/

namespace PendingLive

open LabelledRun WriteOrder LockedStore PaymentStore PaymentSend PaymentWrite
open PaymentNode ManagerBook

variable {β : Type} {E : NodeEnv β} {s t : Node β} {a : NodeAction} {id : PaymentId}

/-- The payments that are in flight or whose terminal event waits for its handler. -/
def awaited (s : Node β) : List PaymentId :=
  s.manager.inFlight ++ s.manager.events.filterMap terminalId

/-- The payments of the send commands in progress. -/
def sendingIds (s : Node β) : List PaymentId := s.tasks.filterMap sendingId

/-- A record that says `Pending` of a payment that is awaited or being sent. -/
def Accounted (s : Node β) (id : PaymentId) : Prop :=
  statusOf s.outbound.mem id = some .pending → id ∈ awaited s ∨ id ∈ sendingIds s

instance accountedDecidable (s : Node β) (id : PaymentId) : Decidable (Accounted s id) :=
  inferInstanceAs (Decidable (_ → _))

/-- The send command that a step ends without touching its record: its first
    write has failed, or its offer or name payment is rejected. -/
def givesUp (s : Node β) : NodeAction → Option (Nat × PaymentId)
  | .resume k =>
      match s.tasks[k]? with
      | some (.recording plan w) =>
          if outcome s.outbound.file w = some false then some (k, plan.paymentId) else none
      | _ => none
  | .reject k =>
      match s.tasks[k]? with
      | some (.calling plan _) =>
          if marksRejection plan.call then none else some (k, plan.paymentId)
      | _ => none
  | _ => none

/-- The outbound records that a start-up finds. -/
def storedOutbound (E : NodeEnv β) (s : Node β) (readable : Bool) :
    OutboundPaymentInfoStorage :=
  readPaymentInfo E.cOut readable (content s.outbound.file)

/-- No step leaves a pending record to no one: a send command that gives up has
    its record accounted for without it, and a start-up finds no pending record
    of a payment that is remembered and not awaited. -/
def LeavesAccounted (E : NodeEnv β) (s : Node β) (a : NodeAction) : Prop :=
  (∀ g ∈ givesUp s a, Accounted { s with tasks := s.tasks.set g.1 .finished } g.2) ∧
  match a with
  | .boot _ readable =>
      ∀ id ∈ s.manager.recentPayments,
        statusOf (storedOutbound E s readable) id = some .pending → id ∈ awaited s
  | _ => True

instance leavesAccountedDecidable (s : Node β) (a : NodeAction) :
    Decidable (LeavesAccounted E s a) :=
  @instDecidableAnd _ _ inferInstance <| match a with
  | .boot _ _ => inferInstanceAs (Decidable (∀ id ∈ s.manager.recentPayments, _ → _))
  | .send _ | .getInvoice _ _ | .resume _ | .accept _ | .reject _ | .markRejected _
  | .settleInbound _ _ | .settleOutbound _ _ | .emit _ | .handle _ | .forget _
  | .crash | .started =>
      inferInstanceAs (Decidable True)

/-! ## What a step does to the live payments -/

/-- What one task is looked at for survives its next step if that step keeps it. -/
private theorem mem_filterMap_set {α γ : Type} {f : α → Option γ} {L : List α} {k : Nat}
    {x y : α} {v : γ} (hk : L[k]? = some x) (hv : v ∈ L.filterMap f)
    (hxy : f x = some v → f y = some v) : v ∈ (L.set k y).filterMap f := by
  obtain ⟨z, hz, hfz⟩ := List.mem_filterMap.mp hv
  obtain ⟨i, hi⟩ := List.mem_iff_getElem?.mp hz
  refine List.mem_filterMap.mpr ?_
  by_cases hik : k = i
  · subst hik
    obtain rfl := Option.some.inj (hk.symm.trans hi)
    have hlt := (List.getElem?_eq_some_iff.mp hk).1
    exact ⟨y, List.mem_iff_getElem?.mpr ⟨k, List.getElem?_set_self hlt⟩, hxy hfz⟩
  · exact ⟨z, List.mem_iff_getElem?.mpr ⟨i, by rw [List.getElem?_set_ne hik]; exact hi⟩, hfz⟩

/-- A task that starts leaves the others in progress. -/
private theorem sending_push {u : Task} (hid : id ∈ sendingIds s)
    (htasks : t.tasks = s.tasks ++ [u]) : id ∈ sendingIds t := by
  rw [sendingIds]
  rw [htasks, List.filterMap_append]
  exact List.mem_append_left _ hid

/-- Every pending record of the store is accounted for. -/
def AllAccounted (s : Node β) : Prop := ∀ id, Accounted s id

/-- A step that makes no record pending and gives up no payment. -/
private theorem accounted_of_less (hs : AllAccounted s)
    (hmem : ∀ id, statusOf t.outbound.mem id = some .pending →
      statusOf s.outbound.mem id = some .pending)
    (hlive : ∀ id, statusOf t.outbound.mem id = some .pending →
      id ∈ awaited s ∨ id ∈ sendingIds s → id ∈ awaited t ∨ id ∈ sendingIds t) :
    AllAccounted t :=
  fun id hp => hlive id hp (hs id (hmem id hp))

/-- A change that ends the record `k` leaves the others pending. -/
private theorem pending_of_ended {k : PaymentId} {o : Option HTLCStatus} {st : HTLCStatus}
    (hst : st ≠ .pending)
    (h : (if id = k then o.map fun _ => st else o) = some .pending) :
    id ≠ k ∧ o = some .pending := by
  split at h
  · obtain ⟨old, -, heq⟩ := Option.map_eq_some_iff.mp h
    exact absurd heq hst
  · rename_i hne
    exact ⟨hne, h⟩

/-- What is pending after a failure is another payment, pending before. -/
private theorem pending_of_setFailed {m : OutboundPaymentInfoStorage} {k : PaymentId}
    (h : statusOf (setFailed k m) id = some .pending) :
    id ≠ k ∧ statusOf m id = some .pending := by
  rw [statusOf_setFailed] at h
  exact pending_of_ended (by decide) h

private theorem pending_of_paymentSent {m : OutboundPaymentInfoStorage} {k : PaymentId}
    {pre : PaymentPreimage} (h : statusOf (paymentSent k pre m) id = some .pending) :
    id ≠ k ∧ statusOf m id = some .pending := by
  rw [statusOf_paymentSent] at h
  exact pending_of_ended (by decide) h

/-- The payments that the event does not end are awaited as before. -/
private theorem awaited_take {j : Nat} {ev : PaymentEvent}
    (hj : s.manager.events[j]? = some ev) (hne : terminalId ev ≠ some id)
    (hid : id ∈ awaited s) (ht : t.manager = takeEvent s.manager j) : id ∈ awaited t := by
  rw [awaited]
  rw [ht]
  rcases List.mem_append.mp hid with hfly | hend
  · exact List.mem_append_left _ hfly
  · refine List.mem_append_right _ ?_
    obtain ⟨hlt, rfl⟩ := List.getElem?_eq_some_iff.mp hj
    obtain ⟨e, he, hterm⟩ := List.mem_filterMap.mp hend
    refine List.mem_filterMap.mpr ⟨e, ?_, hterm⟩
    rcases List.mem_cons.mp ((List.getElem_cons_eraseIdx_perm hlt).mem_iff.mpr he)
      with rfl | hrest
    · exact absurd hterm hne
    · exact hrest

/-- The events: each takes its own payment out of the pending ones. -/
theorem handleEvent_accounted {j : Nat} {ev : PaymentEvent} (hs : AllAccounted s)
    (hj : s.manager.events[j]? = some ev) : AllAccounted (handleEvent E s j ev) := by
  cases ev with
  | paymentClaimed h purpose amt =>
      refine accounted_of_less hs (fun _ hp => hp) (fun id _ hl => ?_)
      rcases hl with hl | hl
      · exact Or.inl (awaited_take hj (fun h => nomatch h) hl rfl)
      · exact Or.inr (sending_push hl rfl)
  | paymentSent paymentId p =>
      cases paymentId with
      | none =>
          refine accounted_of_less hs (fun _ hp => hp) (fun id _ hl => ?_)
          exact hl.imp_left fun h => awaited_take hj (fun h => nomatch h) h rfl
      | some k =>
          refine accounted_of_less hs (fun id hp => (pending_of_paymentSent hp).2) ?_
          intro id hp hl
          -- a payment that is still pending is another one
          have hne := (pending_of_paymentSent hp).1
          rcases hl with hl | hl
          · exact Or.inl (awaited_take hj (fun h => hne (Option.some.inj h).symm) hl rfl)
          · exact Or.inr (sending_push hl rfl)
  | paymentFailed k =>
      refine accounted_of_less hs (fun id hp => (pending_of_setFailed hp).2) ?_
      intro id hp hl
      have hne := (pending_of_setFailed hp).1
      rcases hl with hl | hl
      · exact Or.inl (awaited_take hj (fun h => hne (Option.some.inj h).symm) hl rfl)
      · exact Or.inr (sending_push hl rfl)

/-- A task that goes on with the same payment, or with none before and after. -/
private theorem sending_set {k : Nat} {u u' : Task} (hk : s.tasks[k]? = some u)
    (hid : id ∈ sendingIds s) (hu : sendingId u = some id → sendingId u' = some id)
    (htasks : t.tasks = s.tasks.set k u') : id ∈ sendingIds t := by
  rw [sendingIds]
  rw [htasks]
  exact mem_filterMap_set hk hid hu

/-- A command that gives up leaves the others as they were. -/
private theorem accounted_of_givesUp {k : Nat} {plan : SendPlan} (hs : AllAccounted s)
    {u : Task} (hk : s.tasks[k]? = some u) (hu : sendingId u = some plan.paymentId)
    (hg : Accounted { s with tasks := s.tasks.set k .finished } plan.paymentId)
    (hmem : t.outbound = s.outbound) (hman : t.manager = s.manager)
    (htasks : t.tasks = s.tasks.set k .finished) : AllAccounted t := by
  intro id hp
  rw [awaited, sendingIds]
  rw [hman, htasks]
  rw [hmem] at hp
  by_cases heq : id = plan.paymentId
  · subst heq
    exact hg hp
  · rcases hs id hp with hl | hl
    · exact Or.inl hl
    · refine Or.inr (mem_filterMap_set hk hl fun h => ?_)
      exact absurd (Option.some.inj (h.symm.trans hu)) heq

/-- A task that goes on keeps its payment accounted for. -/
theorem resumed_accounted {k : Nat} {u u' : Task} (hs : AllAccounted s)
    (hg : LeavesAccounted E s (.resume k)) (hk : s.tasks[k]? = some u)
    (hu : resumeTask s u = some u') :
    AllAccounted { s with tasks := s.tasks.set k u' } := by
  have hkeep (h : ∀ id, sendingId u = some id → sendingId u' = some id) :
      AllAccounted { s with tasks := s.tasks.set k u' } :=
    accounted_of_less hs (fun _ hp => hp)
      fun id _ hl => hl.imp_right fun hid => sending_set hk hid (h id) rfl
  cases resumeTask_resumed hu with
  | recorded hok => exact hkeep (fun _ h => h)
  | @unrecorded plan w hok =>
      refine accounted_of_givesUp hs hk rfl (hg.1 (k, plan.paymentId) ?_) rfl rfl rfl
      simp [givesUp, hk, hok]
  | ended hnone => exact hkeep (fun id h => by cases hnone.symm.trans h)

/-- One move of the node, arm by arm. -/
theorem move_accounted (hs : AllAccounted s) (hg : LeavesAccounted E s a)
    (hm : Move E s a t) : AllAccounted t := by
  cases hm with
  | refused cmd => exact hs
  | @recorded cmd plan hrun hplan =>
      intro id hp
      by_cases heq : id = plan.paymentId
      · subst heq
        exact Or.inr (List.mem_filterMap.mpr ⟨_, List.mem_append_right _ List.mem_cons_self, rfl⟩)
      · rw [show (recordSend E s plan).outbound.mem
          = recordPending plan.paymentId plan.info s.outbound.mem from rfl,
          statusOf_recordPending, if_neg heq] at hp
        exact (hs id hp).imp_right fun hl => sending_push hl rfl
  | @invoiced amt created hrun =>
      exact accounted_of_less hs (fun _ hp => hp)
        fun id _ hl => hl.imp_right fun hl => sending_push hl rfl
  | resumed hrun hk hu => exact resumed_accounted hs hg hk hu
  | @accepted k w plan hrun hk hnew =>
      refine accounted_of_less hs (fun _ hp => hp) fun id _ hl => ?_
      by_cases heq : id = plan.paymentId
      · subst heq
        exact Or.inl (List.mem_append_left _ List.mem_cons_self)
      · rcases hl with hl | hl
        · refine Or.inl ?_
          rcases List.mem_append.mp hl with hfly | hend
          · exact List.mem_append_left _ (List.mem_cons_of_mem _ hfly)
          · exact List.mem_append_right _ hend
        · exact Or.inr (sending_set hk hl
            (fun h => absurd (Option.some.inj h).symm heq) rfl)
  | @rejected k w plan hrun hk =>
      cases hmark : marksRejection plan.call with
      | true =>
          refine accounted_of_less hs (fun _ hp => hp)
            fun id _ hl => hl.imp_right fun hid => sending_set hk hid ?_ rfl
          intro h
          rw [if_pos hmark]
          exact h
      | false =>
          -- the task ends without marking its record
          have hfin : (rejectPay s k plan).tasks = s.tasks.set k .finished := by
            simp [rejectPay, hmark]
          refine accounted_of_givesUp hs hk rfl (hg.1 (k, plan.paymentId) ?_) rfl rfl hfin
          simp [givesUp, hk, hmark]
  | @marked k plan hrun hk =>
      -- the record that is marked is no longer pending
      refine accounted_of_less hs (fun id hp => (pending_of_setFailed hp).2) ?_
      intro id hp hl
      refine hl.imp_right fun hid => sending_set hk hid ?_ rfl
      exact fun h => absurd (Option.some.inj h).symm (pending_of_setFailed hp).1
  | settledInbound hset => exact hs
  | settledOutbound hset =>
      obtain ⟨f, -, rfl⟩ := settleWrite_cases hset
      exact hs
  | @emitted ev hup hev =>
      refine accounted_of_less hs (fun _ hp => hp) fun id _ hl => hl.imp_left fun hid => ?_
      rcases List.mem_append.mp hid with hfly | hend
      · by_cases heq : some id = terminalId ev
        · refine List.mem_append_right _ (List.mem_filterMap.mpr ⟨ev, ?_, heq.symm⟩)
          exact List.mem_append_right _ List.mem_cons_self
        · exact List.mem_append_left _ (List.mem_filter.mpr ⟨hfly, decide_eq_true heq⟩)
      · refine List.mem_append_right _ ?_
        rw [show (emitEvent s.manager ev).events = s.manager.events ++ [ev] from rfl,
          List.filterMap_append]
        exact List.mem_append_left _ hend
  | handled hrun hj => exact handleEvent_accounted hs hj
  | forgotten hup hdone => exact hs
  | crashed hup => exact fun id hp => nomatch hp
  | @booted rIn rOut hdown =>
      intro id hp
      -- a record of a forgotten payment is marked, so a pending one is remembered
      rw [show (startUp E s rIn rOut).outbound.mem
        = reconcile s.manager.recentPayments (storedOutbound E s rOut) from rfl,
        statusOf_reconcile] at hp
      obtain ⟨st, hst, hrec⟩ := Option.map_eq_some_iff.mp hp
      by_cases hstale : st = .pending ∧ id ∉ s.manager.recentPayments
      · rw [if_pos hstale] at hrec
        exact nomatch hrec
      · rw [if_neg hstale] at hrec
        subst hrec
        have hrecent : id ∈ s.manager.recentPayments :=
          Classical.byContradiction fun h => hstale ⟨rfl, h⟩
        exact Or.inl (hg.2 id hrecent hst)
  | started hstart hok => exact hs
  | startFailed hstart hok => exact fun id hp => nomatch hp

/-! ## The law of pending records -/

/-- **PENDING MEANS LIVE**: as long as no step leaves a pending record to no one,
    a `Pending` record whose send command is not in progress is of a payment in
    flight, or of one whose terminal event is undelivered. -/
theorem pending_is_live (inFile outFile : Option β) (m : ChannelManager) (s : Node β)
    (id : PaymentId)
    (hs : Reach (step E) (LeavesAccounted E) (offNode inFile outFile m) s)
    (hidle : id ∉ sendingIds s) (hp : statusOf s.outbound.mem id = some .pending) :
    id ∈ s.manager.inFlight ∨ id ∈ endingIds s := by
  have hoff : AllAccounted (offNode inFile outFile m) := fun id hp => nomatch hp
  have hall : AllAccounted s := reach_invariant
    (fun _ _ _ hI hg hst => move_accounted hI hg (step_move hst)) hs hoff
  rcases hall id hp with hl | hl
  · refine (List.mem_append.mp hl).imp_right fun hend => ?_
    rw [endingIds, undelivered]
    rw [List.filterMap_append]
    exact List.mem_append_right _ hend
  · exact absurd hl hidle

/-- An offer over 1000 msat is paid, up to the answer of the `ChannelManager`. -/
def offerRun : List NodeAction :=
  [.send (.payOffer (some (.bitcoin 1000)) none ["Yes"] (Vector.replicate 32 3)),
    .settleOutbound 1 true, .resume 0]

/-- A payment of an offer, in flight. -/
theorem pending_is_live_offerRun :
    ∃ s : Node OutboundPaymentInfoStorage,
      Reach (step plainEnv) (LeavesAccounted plainEnv) (newNode _) s ∧
      Vector.replicate 32 3 ∉ sendingIds s ∧
      statusOf s.outbound.mem (Vector.replicate 32 3) = some .pending ∧
      (Vector.replicate 32 3 ∈ s.manager.inFlight ∨ Vector.replicate 32 3 ∈ endingIds s) := by
  obtain ⟨s, hs, hcheck⟩ := reach_of_check (newNode OutboundPaymentInfoStorage)
    (step plainEnv) (LeavesAccounted plainEnv)
    (firstBoot ++ offerRun ++ ([.accept 0] : List NodeAction))
    (fun s => decide (Vector.replicate 32 3 ∉ sendingIds s) &&
      decide (statusOf s.outbound.mem (Vector.replicate 32 3) = some .pending))
    (by decide +kernel)
  obtain ⟨hidle, hp⟩ := Bool.and_eq_true _ _ |>.mp hcheck
  exact ⟨s, hs, of_decide_eq_true hidle, of_decide_eq_true hp, pending_is_live none none ⟨[], [], []⟩ s _ hs
    (of_decide_eq_true hidle) (of_decide_eq_true hp)⟩

/-- **A REJECTED OFFER STAYS PENDING**: no command is in progress, the record says
    `Pending`, and the `ChannelManager` has never known the payment. -/
theorem rejected_offer_stays_pending :
    ¬ ∀ (s : Node OutboundPaymentInfoStorage) (id : PaymentId),
      Reach (step plainEnv) Retained (newNode _) s →
      sendingIds s = [] → statusOf s.outbound.mem id = some .pending →
      id ∈ s.manager.inFlight ∨ id ∈ s.manager.recentPayments ∨ id ∈ endingIds s := by
  intro hall
  obtain ⟨s, hs, hcheck⟩ := reach_of_check (newNode OutboundPaymentInfoStorage)
    (step plainEnv) Retained
    (firstBoot ++ offerRun ++ ([.reject 0] : List NodeAction))
    (fun s => decide (sendingIds s = []) &&
      decide (statusOf s.outbound.mem (Vector.replicate 32 3) = some .pending) &&
      decide (s.manager.inFlight = []) && decide (s.manager.recentPayments = []) &&
      decide (endingIds s = []))
    (by decide +kernel)
  simp only [Bool.and_eq_true, decide_eq_true_eq] at hcheck
  obtain ⟨⟨⟨⟨hidle, hp⟩, hfly⟩, hrec⟩, hend⟩ := hcheck
  have hlive := hall s _ hs hidle hp
  rw [hfly, hrec, hend] at hlive
  rcases hlive with h | h | h <;> exact nomatch h

end PendingLive
