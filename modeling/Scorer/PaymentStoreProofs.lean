import Mathlib

/-! # The payment stores and the code that changes them

    `state.rs` keeps two maps of payment records, one for payments this node
    receives and one for payments it makes.  Ten places of the node change them:
    the arms of `handle_ldk_events`, the send paths of the command line and the
    start-up reconciliation.  Each change is a function on the map here, with a
    lemma that says which records it leaves and what it does to the others:

    * `paymentClaimed`, `getInvoice` change the inbound store;
    * `recordPending`, `sendRejected`, `paymentSent`, `paymentFailed` and
      `reconcile` change the outbound store;
    * `KeysKept` and the lemmas `…_keysKept`: no change removes a record. -/

namespace PaymentStore

open Std

/-- A `[u8; 32]`. -/
abbrev Bytes32 := Vector UInt8 32

instance bytes32TransOrd : TransOrd Bytes32 := inferInstance

instance bytes32LawfulBEq : LawfulBEq Bytes32 := inferInstance

/-- The key of an inbound payment: what the preimage hashes to. -/
abbrev PaymentHash := Bytes32

/-- The key of an outbound payment: for an invoice its hash, else drawn at random. -/
abbrev PaymentId := Bytes32

/-- What the recipient of a payment reveals to claim it. -/
abbrev PaymentPreimage := Bytes32

/-- What an invoice gives its payer to show to the recipient. -/
abbrev PaymentSecret := Bytes32

/-- How far a payment has come. -/
inductive HTLCStatus where
  | pending
  | succeeded
  | failed
  deriving DecidableEq, Repr

/-- An amount that may be unknown. -/
structure MillisatAmount where
  msat : Option UInt64
  deriving DecidableEq, Repr

/-- The record of one payment, the value of both maps. -/
structure PaymentInfo where
  preimage : Option PaymentPreimage
  secret   : Option PaymentSecret
  status   : HTLCStatus
  amtMsat  : MillisatAmount
  deriving DecidableEq, Repr

/-- `InboundPaymentInfoStorage`, its one field `payments`. -/
abbrev InboundPaymentInfoStorage := ExtTreeMap PaymentHash PaymentInfo

/-- `OutboundPaymentInfoStorage`, its one field `payments`. -/
abbrev OutboundPaymentInfoStorage := ExtTreeMap PaymentId PaymentInfo

/-! ## Lookups, with keys compared by equality -/

variable {V : Type}

/-- An insertion changes what its own key finds, and nothing else. -/
theorem insert_get (m : ExtTreeMap Bytes32 V) (k a : Bytes32) (v : V) :
    (m.insert k v)[a]? = if a = k then some v else m[a]? := by
  rw [ExtTreeMap.getElem?_insert]
  by_cases h : a = k
  · subst h; simp
  · simp [h, Ne.symm h]

/-- A removal empties its own key, and nothing else. -/
theorem erase_get (m : ExtTreeMap Bytes32 V) (k a : Bytes32) :
    (m.erase k)[a]? = if a = k then none else m[a]? := by
  rw [ExtTreeMap.getElem?_erase]
  by_cases h : a = k
  · subst h; simp
  · simp [h, Ne.symm h]

/-- A change of the value of a key, where there is one. -/
theorem modify_get (m : ExtTreeMap Bytes32 V) (k a : Bytes32) (f : V → V) :
    (m.modify k f)[a]? = if a = k then m[a]?.map f else m[a]? := by
  rw [ExtTreeMap.getElem?_modify]
  by_cases h : a = k
  · subst h; simp
  · simp [h, Ne.symm h]

/-- A change of every value is one at each key. -/
theorem map_get (m : ExtTreeMap Bytes32 V) (f : Bytes32 → V → V) (a : Bytes32) :
    (m.map f)[a]? = m[a]?.map (f a) :=
  ExtTreeMap.getElem?_map

/-- A look-up that finds nothing, as non-membership. -/
theorem not_mem_of_get {m : ExtTreeMap Bytes32 V} {a : Bytes32} (h : m[a]? = none) :
    a ∉ m := by
  intro hm
  rw [ExtTreeMap.mem_iff_isSome_getElem?, h] at hm
  exact nomatch hm

/-! ## The inbound store -/

/-- `PaymentPurpose`, with the fields the handlers read. -/
inductive PaymentPurpose where
  | bolt11InvoicePayment (paymentPreimage : Option PaymentPreimage)
      (paymentSecret : PaymentSecret)
  | bolt12OfferPayment (paymentPreimage : Option PaymentPreimage)
      (paymentSecret : PaymentSecret)
  | bolt12RefundPayment (paymentPreimage : Option PaymentPreimage)
      (paymentSecret : PaymentSecret)
  | spontaneousPayment (preimage : PaymentPreimage)
  deriving DecidableEq, Repr

/-- The preimage and the secret that the `PaymentClaimed` arm takes out. -/
def claimedParts : PaymentPurpose → Option PaymentPreimage × Option PaymentSecret
  | .bolt11InvoicePayment paymentPreimage paymentSecret =>
      (paymentPreimage, some paymentSecret)
  | .bolt12OfferPayment paymentPreimage paymentSecret =>
      (paymentPreimage, some paymentSecret)
  | .bolt12RefundPayment paymentPreimage paymentSecret =>
      (paymentPreimage, some paymentSecret)
  | .spontaneousPayment preimage => (some preimage, none)

/-- The `PaymentClaimed` arm: an existing record keeps its amount. -/
def paymentClaimed (paymentHash : PaymentHash) (purpose : PaymentPurpose)
    (amountMsat : UInt64) (inbound : InboundPaymentInfoStorage) :
    InboundPaymentInfoStorage :=
  let (paymentPreimage, paymentSecret) := claimedParts purpose
  match inbound[paymentHash]? with
  | some payment =>
      inbound.insert paymentHash
        { payment with status := .succeeded, preimage := paymentPreimage,
                       secret := paymentSecret }
  | none =>
      inbound.insert paymentHash
        { preimage := paymentPreimage, secret := paymentSecret, status := .succeeded,
          amtMsat := ⟨some amountMsat⟩ }

/-- The record that `PaymentClaimed` leaves under its hash. -/
def claimedInfo (purpose : PaymentPurpose) (amountMsat : UInt64)
    (old : Option PaymentInfo) : PaymentInfo where
  preimage := (claimedParts purpose).1
  secret := (claimedParts purpose).2
  status := .succeeded
  amtMsat := (old.map PaymentInfo.amtMsat).getD ⟨some amountMsat⟩

/-- Both branches of the arm insert under the event's hash. -/
theorem paymentClaimed_insert (h : PaymentHash) (purpose : PaymentPurpose)
    (amt : UInt64) (inbound : InboundPaymentInfoStorage) :
    paymentClaimed h purpose amt inbound
      = inbound.insert h (claimedInfo purpose amt inbound[h]?) := by
  rw [paymentClaimed]
  cases inbound[h]? with
  | none => rfl
  | some payment => rfl

/-- What a claim leaves at each hash: its own record is claimed or made, the others stay. -/
theorem paymentClaimed_get (h : PaymentHash) (purpose : PaymentPurpose) (amt : UInt64)
    (inbound : InboundPaymentInfoStorage) (a : PaymentHash) :
    (paymentClaimed h purpose amt inbound)[a]? =
      if a = h then some (claimedInfo purpose amt inbound[h]?) else inbound[a]? := by
  rw [paymentClaimed_insert, insert_get]

/-- What `create_bolt11_invoice` returns, with the fields read here. -/
structure CreatedInvoice where
  paymentHash   : PaymentHash
  paymentSecret : PaymentSecret
  deriving DecidableEq, Repr

/-- The change of `get_invoice`; `none` when `create_bolt11_invoice` fails. -/
def getInvoice (amtMsat : UInt64) (created : Option CreatedInvoice)
    (inbound : InboundPaymentInfoStorage) : InboundPaymentInfoStorage :=
  match created with
  | some invoice =>
      inbound.insert invoice.paymentHash
        { preimage := none, secret := some invoice.paymentSecret, status := .pending,
          amtMsat := ⟨some amtMsat⟩ }
  | none => inbound

/-! ## The outbound store -/

/-- The blind insert that each send path starts with. -/
def recordPending (paymentId : PaymentId) (info : PaymentInfo)
    (outbound : OutboundPaymentInfoStorage) : OutboundPaymentInfoStorage :=
  outbound.insert paymentId info

/-- `if let Some(payment) = payments.get_mut(&id) { payment.status = Failed }`. -/
def setFailed (paymentId : PaymentId) (outbound : OutboundPaymentInfoStorage) :
    OutboundPaymentInfoStorage :=
  outbound.modify paymentId fun payment => { payment with status := .failed }

/-- The error branch of `send_payment` and of `keysend`. -/
def sendRejected (paymentId : PaymentId) (outbound : OutboundPaymentInfoStorage) :
    OutboundPaymentInfoStorage :=
  setFailed paymentId outbound

/-- The `PaymentFailed` arm. -/
def paymentFailed (paymentId : PaymentId) (outbound : OutboundPaymentInfoStorage) :
    OutboundPaymentInfoStorage :=
  setFailed paymentId outbound

/-- The `PaymentSent` arm: a loop over all records. -/
def paymentSent (paymentId : PaymentId) (paymentPreimage : PaymentPreimage)
    (outbound : OutboundPaymentInfoStorage) : OutboundPaymentInfoStorage :=
  outbound.map fun id payment =>
    if id = paymentId then
      { payment with preimage := some paymentPreimage, status := .succeeded }
    else payment

/-- The start-up reconciliation with the ids of `list_recent_payments`. -/
def reconcile (recentPayments : List PaymentId) (outbound : OutboundPaymentInfoStorage) :
    OutboundPaymentInfoStorage :=
  outbound.map fun id payment =>
    if payment.status = .pending then
      if recentPayments.contains id then payment else { payment with status := .failed }
    else payment

/-- What recording a payment leaves at each id. -/
theorem recordPending_get (id : PaymentId) (info : PaymentInfo)
    (outbound : OutboundPaymentInfoStorage) (a : PaymentId) :
    (recordPending id info outbound)[a]? = if a = id then some info else outbound[a]? :=
  insert_get ..

/-- What failing a payment leaves at each id; it makes no record. -/
theorem setFailed_get (id : PaymentId) (outbound : OutboundPaymentInfoStorage)
    (a : PaymentId) :
    (setFailed id outbound)[a]? =
      if a = id then outbound[a]?.map fun p => { p with status := .failed }
      else outbound[a]? :=
  modify_get ..

/-- What `PaymentSent` leaves at each id; it makes no record either. -/
theorem paymentSent_get (id : PaymentId) (pre : PaymentPreimage)
    (outbound : OutboundPaymentInfoStorage) (a : PaymentId) :
    (paymentSent id pre outbound)[a]? =
      if a = id then
        outbound[a]?.map fun p => { p with preimage := some pre, status := .succeeded }
      else outbound[a]? := by
  rw [paymentSent, map_get]
  by_cases h : a = id
  · simp [h]
  · simp [h]

/-- What a start leaves at each id: the records that are still pending and that LDK no
    longer lists are failed. -/
theorem reconcile_get (recent : List PaymentId) (outbound : OutboundPaymentInfoStorage)
    (a : PaymentId) :
    (reconcile recent outbound)[a]? =
      outbound[a]?.map fun p =>
        if p.status = .pending ∧ a ∉ recent then { p with status := .failed } else p := by
  rw [reconcile, map_get]
  congr 1
  funext p
  by_cases hs : p.status = .pending
  · by_cases ha : a ∈ recent
    · simp [hs, ha]
    · simp [hs, ha]
  · simp [hs]

/-! ## The status of a record -/

/-- The status of a payment, for what does not depend on the rest of its record. -/
def statusOf (outbound : OutboundPaymentInfoStorage) (id : PaymentId) : Option HTLCStatus :=
  outbound[id]?.map PaymentInfo.status

section Status

variable (outbound : OutboundPaymentInfoStorage) (id a : PaymentId)

/-- A recorded payment has the status of its record. -/
theorem statusOf_recordPending (info : PaymentInfo) :
    statusOf (recordPending id info outbound) a =
      if a = id then some info.status else statusOf outbound a := by
  rw [statusOf, recordPending_get]
  split <;> rfl

/-- A payment that is failed has failed if there is a record of it. -/
theorem statusOf_setFailed :
    statusOf (setFailed id outbound) a =
      if a = id then (statusOf outbound a).map fun _ => .failed
      else statusOf outbound a := by
  rw [statusOf, statusOf, setFailed_get]
  split
  · rw [Option.map_map, Option.map_map]
    rfl
  · rfl

/-- A payment that was sent has succeeded if there is a record of it. -/
theorem statusOf_paymentSent (pre : PaymentPreimage) :
    statusOf (paymentSent id pre outbound) a =
      if a = id then (statusOf outbound a).map fun _ => .succeeded
      else statusOf outbound a := by
  rw [statusOf, statusOf, paymentSent_get]
  split
  · rw [Option.map_map, Option.map_map]
    rfl
  · rfl

/-- A start fails what is pending and not listed, and no other status. -/
theorem statusOf_reconcile (recent : List PaymentId) :
    statusOf (reconcile recent outbound) a =
      (statusOf outbound a).map fun st =>
        if st = .pending ∧ a ∉ recent then .failed else st := by
  rw [statusOf, statusOf, reconcile_get, Option.map_map, Option.map_map]
  congr 1
  funext p
  simp only [Function.comp]
  split <;> rfl

end Status

/-! ## No change removes a record -/

/-- Every key of `m` is a key of `m'`. -/
def KeysKept (m m' : ExtTreeMap Bytes32 V) : Prop :=
  ∀ k : Bytes32, m[k]?.isSome → m'[k]?.isSome

theorem KeysKept.refl (m : ExtTreeMap Bytes32 V) : KeysKept m m := fun _ h => h

/-- What keeps the keys twice keeps them. -/
theorem KeysKept.trans {m₁ m₂ m₃ : ExtTreeMap Bytes32 V} (h₁ : KeysKept m₁ m₂)
    (h₂ : KeysKept m₂ m₃) : KeysKept m₁ m₃ :=
  fun k h => h₂ k (h₁ k h)

/-- An insertion keeps the keys. -/
theorem insert_keysKept (m : ExtTreeMap Bytes32 V) (k : Bytes32) (v : V) :
    KeysKept m (m.insert k v) := by
  intro a ha
  rw [insert_get]
  by_cases h : a = k
  · simp [h]
  · simpa [h] using ha

theorem map_keysKept (m : ExtTreeMap Bytes32 V) (f : Bytes32 → V → V) :
    KeysKept m (m.map f) := by
  intro a ha
  rw [map_get, Option.isSome_map]
  exact ha

/-- Failing a payment removes no record. -/
theorem setFailed_keysKept (id : PaymentId) (outbound : OutboundPaymentInfoStorage) :
    KeysKept outbound (setFailed id outbound) := by
  intro a ha
  rw [setFailed_get]
  by_cases h : a = id
  · rwa [if_pos h, Option.isSome_map]
  · rwa [if_neg h]

/-- A claim removes no record. -/
theorem paymentClaimed_keysKept (h : PaymentHash) (purpose : PaymentPurpose)
    (amt : UInt64) (inbound : InboundPaymentInfoStorage) :
    KeysKept inbound (paymentClaimed h purpose amt inbound) := by
  rw [paymentClaimed_insert]
  exact insert_keysKept _ _ _

/-- Neither does an invoice, whether it could be created or not. -/
theorem getInvoice_keysKept (amt : UInt64) (created : Option CreatedInvoice)
    (inbound : InboundPaymentInfoStorage) :
    KeysKept inbound (getInvoice amt created inbound) := by
  cases created with
  | none => exact KeysKept.refl _
  | some invoice => exact insert_keysKept _ _ _

end PaymentStore
