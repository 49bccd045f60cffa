import Scorer.PaymentNodeProofs

/-! # The books of the `ChannelManager`

    A payment that was accepted is in flight until its terminal event is emitted,
    and the event is undelivered until its handler has returned; a crash in
    between has it delivered again.

    * `undelivered` and `endingIds` are these events and the payments that they end;
    * `Retained` is what the node is promised: an id stays in `list_recent_payments` until
      its terminal event has been delivered;
    * `move_remembered`: a payment in flight is in the list in any case. -/

namespace ManagerBook

open LabelledRun LockedStore PaymentStore PaymentSend PaymentNode

variable {β : Type} {E : NodeEnv β} {s t : Node β} {a : NodeAction} {id : PaymentId}

/-- The events emitted whose handlers have not returned. -/
def undelivered (s : Node β) : List PaymentEvent :=
  s.tasks.filterMap unacknowledged ++ s.manager.events

/-- The payments that these events end. -/
def endingIds (s : Node β) : List PaymentId := (undelivered s).filterMap terminalId

/-- A payment is remembered until its terminal event has been delivered. -/
def Retained (s : Node β) : NodeAction → Prop
  | .forget id => id ∉ endingIds s
  | _ => True

instance retainedDecidable (s : Node β) : (a : NodeAction) → Decidable (Retained s a)
  | .forget id => inferInstanceAs (Decidable (id ∉ endingIds s))
  | .send _ | .getInvoice _ _ | .resume _ | .accept _ | .reject _ | .markRejected _
  | .settleInbound _ _ | .settleOutbound _ _ | .emit _ | .handle _ | .crash
  | .boot _ _ | .started =>
      inferInstanceAs (Decidable True)

/-! ## The books are kept -/

/-- A payment in flight is remembered, whatever else the node forgets. -/
def Remembered (s : Node β) : Prop :=
  ∀ id ∈ s.manager.inFlight, id ∈ s.manager.recentPayments

/-- Accepting a payment lists it, and what is in flight is not forgotten. -/
theorem move_remembered (hs : Remembered s) (hm : Move E s a t) : Remembered t := by
  cases hm with
  | refused | recorded | invoiced | resumed | rejected | marked | settledInbound
  | settledOutbound | crashed | booted | started | startFailed => exact hs
  | accepted hrun hk hnew =>
      intro id hid
      rcases List.mem_cons.mp hid with rfl | hold
      · exact List.mem_cons_self
      · exact List.mem_cons_of_mem _ (hs id hold)
  | emitted hup hev => exact fun id hid => hs id (List.mem_filter.mp hid).1
  | handled hrun hj =>
      rw [handleEvent]
      split <;> exact hs
  | forgotten hup hdone =>
      intro id hid
      refine List.mem_filter.mpr ⟨hs id hid, decide_eq_true ?_⟩
      rintro rfl
      exact hdone hid

/-- A task that goes on has nothing to acknowledge yet. -/
theorem resumeTask_unacknowledged {u u' : Task} (h : resumeTask s u = some u') :
    unacknowledged u' = none := by
  cases resumeTask_resumed h <;> rfl

end ManagerBook
