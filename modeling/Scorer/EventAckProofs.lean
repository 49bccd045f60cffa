import Scorer.PaymentNodeProofs

/-! # What an acknowledged event leaves behind

    `process_events_async` drops an event whose handler returns `Ok` and delivers
    again one whose handler returns `Err`.  The closure of `start_ldk` awaits
    `handle_ldk_events`, which returns nothing, and then returns `Ok`: a failure of
    the I/O inside ends as a line in the log.  So the acknowledgement says that the
    event's effect is durable exactly when that I/O has succeeded
    (`acknowledged_durable_iff`). -/

namespace EventAck

open LockedStore PaymentStore PaymentNode

/-- The events with an effect that must be durable; `δ` are the descriptors of
    spendable outputs. -/
inductive LdkEvent (δ : Type) where
  | spendableOutputs (outputs : List δ) (channelId : Option Bytes32)
  | payment (ev : PaymentEvent)
  deriving DecidableEq, Repr

/-- The I/O that the arms of these events perform. -/
inductive IoCall (δ β : Type) where
  | trackSpendableOutputs (outputs : List δ) (channelId : Option Bytes32)
      (excludeStaticOutputs : Bool) (delayUntilHeight : Option UInt32)
  | write (primaryNamespace secondaryNamespace key : String) (buf : β)
  deriving DecidableEq, Repr

/-- What `track_spendable_outputs` and `fs_store.write` come to; a failed write
    carries the text of its error. -/
structure IoOutcomes where
  tracked : Except Unit Unit
  written : Except String Unit

/-- What a handler leaves: the stores, the I/O with its success, the error lines. -/
structure Handled (δ β : Type) where
  inbound  : InboundPaymentInfoStorage
  outbound : OutboundPaymentInfoStorage
  calls    : List (IoCall δ β × Bool)
  logged   : List String

/-- `INBOUND_PAYMENTS_FNAME`. -/
def inboundPaymentsFname : String := "inbound_payments"

/-- `OUTBOUND_PAYMENTS_FNAME`. -/
def outboundPaymentsFname : String := "outbound_payments"

variable {δ β : Type} (E : NodeEnv β) (io : IoOutcomes)
  (inbound : InboundPaymentInfoStorage) (outbound : OutboundPaymentInfoStorage)

/-- The calls of an arm that writes a store, and what it logs when that fails. -/
def writeStore (key : String) (buf : β) (failure : String) :
    List (IoCall δ β × Bool) × List String :=
  match io.written with
  | .ok () => ([(.write "" "" key buf, true)], [])
  | .error e => ([(.write "" "" key buf, false)], [failure ++ e])

/-- The arms of `handle_ldk_events` for these events. -/
def handleLdkEvents : LdkEvent δ → Handled δ β
  | .spendableOutputs outputs channelId =>
      let call : IoCall δ β := .trackSpendableOutputs outputs channelId false none
      match io.tracked with
      | .ok () => ⟨inbound, outbound, [(call, true)], []⟩
      | .error () =>
          ⟨inbound, outbound, [(call, false)], ["failed to track spendable outputs: ()"]⟩
  | .payment (.paymentClaimed paymentHash purpose amountMsat) =>
      let inbound' := paymentClaimed paymentHash purpose amountMsat inbound
      let (calls, logged) := writeStore io inboundPaymentsFname (E.cIn.encode inbound')
        "failed to persist inbound payment state: "
      ⟨inbound', outbound, calls, logged⟩
  | .payment (.paymentSent none _) =>
      ⟨inbound, outbound, [], ["PaymentSent event missing payment_id"]⟩
  | .payment (.paymentSent (some paymentId) paymentPreimage) =>
      let outbound' := paymentSent paymentId paymentPreimage outbound
      let (calls, logged) := writeStore io outboundPaymentsFname (E.cOut.encode outbound')
        "failed to persist outbound payment state: "
      ⟨inbound, outbound', calls, logged⟩
  | .payment (.paymentFailed paymentId) =>
      let outbound' := paymentFailed paymentId outbound
      let (calls, logged) := writeStore io outboundPaymentsFname (E.cOut.encode outbound')
        "failed to persist outbound payment failure state: "
      ⟨inbound, outbound', calls, logged⟩

/-- The error that has an event delivered again. -/
inductive ReplayEvent where
  | replay
  deriving DecidableEq, Repr

/-- The `event_handler` closure of `start_ldk`. -/
def eventHandler (ev : LdkEvent δ) : Handled δ β × Except ReplayEvent Unit :=
  (handleLdkEvents E io inbound outbound ev, .ok ())

/-! ## Durable effects -/

/-- The snapshot holds what a `PaymentClaimed` says. -/
def HoldsClaim (stored : InboundPaymentInfoStorage) (paymentHash : PaymentHash)
    (purpose : PaymentPurpose) : Prop :=
  ∃ info : PaymentInfo, stored[paymentHash]? = some info ∧ info.status = .succeeded ∧
    info.preimage = (claimedParts purpose).1 ∧ info.secret = (claimedParts purpose).2

/-- The snapshot holds a record of `id` with this status and preimage, if the
    store had a record of `id` to update. -/
def HoldsEnd (before stored : OutboundPaymentInfoStorage) (id : PaymentId)
    (status : HTLCStatus) (pre : Option PaymentPreimage → Option PaymentPreimage) : Prop :=
  ∀ old : PaymentInfo, before[id]? = some old →
    ∃ info : PaymentInfo, stored[id]? = some info ∧ info.status = status ∧
      info.preimage = pre old.preimage

/-- The effect of the event is durable: its outputs are tracked, or a snapshot with
    its update was written successfully.  A `PaymentSent` without an id updates
    nothing. -/
def Durable (ev : LdkEvent δ) (calls : List (IoCall δ β × Bool)) : Prop :=
  match ev with
  | .spendableOutputs outputs channelId =>
      ∃ exclude delay, (.trackSpendableOutputs outputs channelId exclude delay, true) ∈ calls
  | .payment (.paymentClaimed paymentHash purpose _) =>
      ∃ buf stored, (.write "" "" inboundPaymentsFname buf, true) ∈ calls ∧
        E.cIn.decode buf = some stored ∧ HoldsClaim stored paymentHash purpose
  | .payment (.paymentSent none _) => True
  | .payment (.paymentSent (some paymentId) paymentPreimage) =>
      ∃ buf stored, (.write "" "" outboundPaymentsFname buf, true) ∈ calls ∧
        E.cOut.decode buf = some stored ∧
        HoldsEnd outbound stored paymentId .succeeded fun _ => some paymentPreimage
  | .payment (.paymentFailed paymentId) =>
      ∃ buf stored, (.write "" "" outboundPaymentsFname buf, true) ∈ calls ∧
        E.cOut.decode buf = some stored ∧ HoldsEnd outbound stored paymentId .failed fun p => p

/-- The I/O that the handler of the event performs succeeds. -/
def IoSucceeds : LdkEvent δ → Prop
  | .spendableOutputs _ _ => io.tracked = .ok ()
  | .payment (.paymentSent none _) => True
  | .payment _ => io.written = .ok ()

variable {E io inbound outbound}

/-- After a claim the store says that the payment succeeded, with its preimage. -/
theorem paymentClaimed_holds (h : PaymentHash) (purpose : PaymentPurpose) (amt : UInt64) :
    HoldsClaim (paymentClaimed h purpose amt inbound) h purpose := by
  refine ⟨claimedInfo purpose amt inbound[h]?, ?_, rfl, rfl, rfl⟩
  rw [paymentClaimed_get, if_pos rfl]

/-- After `PaymentSent` it says so of an outbound record that it has. -/
theorem paymentSent_holds (id : PaymentId) (p : PaymentPreimage) :
    HoldsEnd outbound (paymentSent id p outbound) id .succeeded fun _ => some p := by
  intro old hold
  refine ⟨{ old with preimage := some p, status := .succeeded }, ?_, rfl, rfl⟩
  rw [paymentSent_get, if_pos rfl, hold]
  rfl

theorem paymentFailed_holds (id : PaymentId) :
    HoldsEnd outbound (paymentFailed id outbound) id .failed fun p => p := by
  intro old hold
  refine ⟨{ old with status := .failed }, ?_, rfl, rfl⟩
  rw [paymentFailed, setFailed_get, if_pos rfl, hold]
  rfl

/-- An arm that writes a store has made a successful write of it exactly when the
    write succeeds. -/
theorem writeStore_success {key : String} {buf b : β} {failure : String} :
    ((.write "" "" key b : IoCall δ β), true) ∈ (writeStore io key buf failure).1 ↔
      io.written = .ok () ∧ b = buf := by
  rw [writeStore]
  cases hw : io.written with
  | ok u => simp
  | error e => simp

/-- A write is there after the handler exactly if it succeeded. -/
private theorem write_durable {σ : Type} {c : Codec σ β} {key : String} {v : σ}
    {failure : String} {P : σ → Prop} (hP : P v) :
    (∃ buf stored, ((.write "" "" key buf : IoCall δ β), true) ∈
        (writeStore io key (c.encode v) failure).1 ∧ c.decode buf = some stored ∧ P stored) ↔
      io.written = .ok () := by
  constructor
  · rintro ⟨buf, stored, hmem, -, -⟩
    exact (writeStore_success.mp hmem).1
  · intro hok
    exact ⟨c.encode v, v, writeStore_success.mpr ⟨hok, rfl⟩, c.decode_encode v, hP⟩

/-- The effect of a handled event is durable exactly when its I/O succeeds. -/
theorem handled_durable_iff (ev : LdkEvent δ) :
    Durable E outbound ev (handleLdkEvents E io inbound outbound ev).calls ↔
      IoSucceeds io ev := by
  cases ev with
  | spendableOutputs outputs channelId =>
      cases hio : io.tracked with
      | ok u => simp [Durable, handleLdkEvents, IoSucceeds, hio]
      | error e => simp [Durable, handleLdkEvents, IoSucceeds, hio]
  | payment ev =>
      cases ev with
      | paymentClaimed h purpose amt => exact write_durable (paymentClaimed_holds h purpose amt)
      | paymentSent id p =>
          cases id with
          | none => exact Iff.rfl
          | some id => exact write_durable (paymentSent_holds id p)
      | paymentFailed id => exact write_durable (paymentFailed_holds id)

/-! ## The acknowledgement -/

/-- The closure acknowledges every event. -/
theorem eventHandler_ok (ev : LdkEvent δ) :
    (eventHandler E io inbound outbound ev).2 = .ok () := rfl

/-- **ACKNOWLEDGED AND DURABLE**: the acknowledgement of an event says that its
    effect is durable exactly when the I/O of its handler succeeds. -/
theorem acknowledged_durable_iff (E : NodeEnv β) (io : IoOutcomes)
    (inbound : InboundPaymentInfoStorage) (outbound : OutboundPaymentInfoStorage)
    (ev : LdkEvent δ) :
    ((eventHandler E io inbound outbound ev).2 = .ok () →
      Durable E outbound ev (eventHandler E io inbound outbound ev).1.calls) ↔
      IoSucceeds io ev := by
  -- the closure acknowledges in every case, so only the effect is in question
  have hdurable : Durable E outbound ev (handleLdkEvents E io inbound outbound ev).calls ↔
      IoSucceeds io ev := handled_durable_iff ev
  rw [← hdurable]
  exact ⟨fun h => h (eventHandler_ok ev), fun h _ => h⟩

/-- **THE LOST OUTPUTS**: `track_spendable_outputs` fails, and the event is
    acknowledged all the same. -/
theorem untracked_outputs_acknowledged :
    ¬ ∀ (io : IoOutcomes) (inbound : InboundPaymentInfoStorage)
      (outbound : OutboundPaymentInfoStorage) (ev : LdkEvent Nat),
      (eventHandler plainEnv io inbound outbound ev).2 = .ok () →
      Durable plainEnv outbound ev (eventHandler plainEnv io inbound outbound ev).1.calls := by
  intro hall
  have hlost := hall ⟨.error (), .ok ()⟩ ∅ ∅ (.spendableOutputs [7] none) rfl
  have hok : (Except.error () : Except Unit Unit) = .ok () := handled_durable_iff _ |>.mp hlost
  exact nomatch hok

end EventAck
