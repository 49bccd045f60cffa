import Scorer.PaymentStoreProofs

/-! # What a send command decides before it records the payment

    `sendpayment` tries its argument as an offer, as a human-readable name and as
    a BOLT11 invoice; `keysend` names a node.  Each of the four paths refuses the
    command or comes to a payment id, a record and a call of the `ChannelManager`.
    `SendPlan` is that outcome; inserting the record, writing the store, making
    the call and the error branch come after it. -/

namespace PaymentSend

open PaymentStore

/-- The fields of a `Bolt11Invoice` that `send_payment` reads. -/
structure Bolt11Invoice where
  paymentHash         : PaymentHash
  paymentSecret       : PaymentSecret
  amountMilliSatoshis : Option UInt64
  deriving DecidableEq, Repr

/-- `offer::Amount`. -/
inductive OfferAmount where
  | bitcoin (amountMsats : UInt64)
  | currency (iso4217Code : Vector UInt8 3) (amount : UInt64)
  deriving DecidableEq, Repr

/-- The calls of the `ChannelManager` that start a payment. -/
inductive PayCall where
  | payForBolt11Invoice (invoice : Bolt11Invoice) (requiredAmountMsat : Option UInt64)
  | sendSpontaneousPayment (paymentPreimage : PaymentPreimage) (amtMsat : UInt64)
  | payForOffer (amtMsat : UInt64)
  | payForOfferFromHumanReadableName (amtMsat : UInt64)
  deriving DecidableEq, Repr

/-- What a send command settles on: the record, and the call to the manager. -/
structure SendPlan where
  paymentId : PaymentId
  info      : PaymentInfo
  call      : PayCall
  deriving DecidableEq, Repr

/-- Why a command stops before it records anything. -/
inductive SendRefusal where
  | invoiceAmountMismatch (invoiceMsat : UInt64)
  | invoiceAmountNeeded
  | offerNotBitcoin (amount : Option OfferAmount)
  | offerAmountMismatch (offerMsat : UInt64)
  | offerDeclined
  | endOfInput
  | nameAmountNeeded
  | noDnsResolvers
  deriving DecidableEq, Repr

/-- The record every path inserts: no preimage yet, `Pending`. -/
def pendingInfo (secret : Option PaymentSecret) (amtMsat : UInt64) : PaymentInfo where
  preimage := none
  secret := secret
  status := .pending
  amtMsat := ⟨some amtMsat⟩

/-- `send_payment`, up to its first lock. -/
def sendPayment (invoice : Bolt11Invoice) (requiredAmountMsat : Option UInt64) :
    Except SendRefusal SendPlan :=
  let plan (amtMsat : UInt64) : SendPlan :=
    { paymentId := invoice.paymentHash
      info := pendingInfo (some invoice.paymentSecret) amtMsat
      call := .payForBolt11Invoice invoice requiredAmountMsat }
  match invoice.amountMilliSatoshis, requiredAmountMsat with
  | some invAmt, some reqAmt =>
      if invAmt ≠ reqAmt then .error (.invoiceAmountMismatch invAmt) else .ok (plan invAmt)
  | some invAmt, none => .ok (plan invAmt)
  | none, some reqAmt => .ok (plan reqAmt)
  | none, none => .error .invoiceAmountNeeded

/-- `keysend`: the payment id is the hash of a random preimage. -/
def keysend (sha256 : Bytes32 → Bytes32) (amtMsat : UInt64) (randomBytes : Bytes32) :
    SendPlan where
  paymentId := sha256 randomBytes
  info := pendingInfo none amtMsat
  call := .sendSpontaneousPayment randomBytes amtMsat

/-- The confirmation loop of an offer: it reads lines until one starts with `Y`
    or `N`; `none` at the end of the input. -/
def confirmOffer : List String → Option Bool
  | [] => none
  | line :: rest =>
      if line.toList.head? = some 'Y' then some true
      else if line.toList.head? = some 'N' then some false
      else confirmOffer rest

/-- The offer branch of `sendpayment`. -/
def payOffer (offerAmount : Option OfferAmount) (userProvidedAmt : Option UInt64)
    (answers : List String) (randomBytes : Bytes32) : Except SendRefusal SendPlan :=
  let plan (amtMsat : UInt64) : SendPlan :=
    { paymentId := randomBytes
      info := pendingInfo none amtMsat
      call := .payForOffer amtMsat }
  let agreed (amtMsat : UInt64) : Except SendRefusal SendPlan :=
    if userProvidedAmt.isSome ∧ userProvidedAmt ≠ some amtMsat then
      .error (.offerAmountMismatch amtMsat)
    else if userProvidedAmt.isNone then
      match confirmOffer answers with
      | some true => .ok (plan amtMsat)
      | some false => .error .offerDeclined
      | none => .error .endOfInput
    else .ok (plan amtMsat)
  match offerAmount, userProvidedAmt with
  | some (.bitcoin amountMsats), _ => agreed amountMsats
  | _, some amt => agreed amt
  | amt, none => .error (.offerNotBitcoin amt)

/-- The human-readable-name branch of `sendpayment`; `dnsResolvers` is the number
    of nodes found that resolve names. -/
def payHumanReadableName (userProvidedAmt : Option UInt64) (dnsResolvers : Nat)
    (randomBytes : Bytes32) : Except SendRefusal SendPlan :=
  match userProvidedAmt with
  | none => .error .nameAmountNeeded
  | some amtMsat =>
      if dnsResolvers = 0 then .error .noDnsResolvers
      else .ok { paymentId := randomBytes
                 info := pendingInfo none amtMsat
                 call := .payForOfferFromHumanReadableName amtMsat }

/-- A command that reaches one of the four paths. -/
inductive SendCommand where
  | sendPayment (invoice : Bolt11Invoice) (requiredAmountMsat : Option UInt64)
  | keysend (amtMsat : UInt64) (randomBytes : Bytes32)
  | payOffer (offerAmount : Option OfferAmount) (userProvidedAmt : Option UInt64)
      (answers : List String) (randomBytes : Bytes32)
  | payHumanReadableName (userProvidedAmt : Option UInt64) (dnsResolvers : Nat)
      (randomBytes : Bytes32)
  deriving DecidableEq, Repr

/-- Each of the four commands by its own function. -/
def planSend (sha256 : Bytes32 → Bytes32) : SendCommand → Except SendRefusal SendPlan
  | .sendPayment invoice requiredAmountMsat => sendPayment invoice requiredAmountMsat
  | .keysend amtMsat randomBytes => .ok (keysend sha256 amtMsat randomBytes)
  | .payOffer offerAmount userProvidedAmt answers randomBytes =>
      payOffer offerAmount userProvidedAmt answers randomBytes
  | .payHumanReadableName userProvidedAmt dnsResolvers randomBytes =>
      payHumanReadableName userProvidedAmt dnsResolvers randomBytes

/-- Whether the path marks its record `Failed` when the call is rejected:
    `send_payment` and `keysend` do, the offer and the name branch only print. -/
def marksRejection : PayCall → Bool
  | .payForBolt11Invoice _ _ => true
  | .sendSpontaneousPayment _ _ => true
  | .payForOffer _ => false
  | .payForOfferFromHumanReadableName _ => false

/-- Whatever the path, the record inserted is `Pending` without a preimage. -/
theorem planSend_pending {sha256 : Bytes32 → Bytes32} {cmd : SendCommand}
    {plan : SendPlan} (h : planSend sha256 cmd = .ok plan) :
    plan.info.status = .pending ∧ plan.info.preimage = none := by
  cases cmd with
  | sendPayment invoice req =>
      simp only [planSend, sendPayment] at h
      split at h
      · split at h
        · exact nomatch h
        · obtain rfl := Except.ok.inj h
          exact ⟨rfl, rfl⟩
      · obtain rfl := Except.ok.inj h
        exact ⟨rfl, rfl⟩
      · obtain rfl := Except.ok.inj h
        exact ⟨rfl, rfl⟩
      · exact nomatch h
  | keysend amt random =>
      obtain rfl := Except.ok.inj h
      exact ⟨rfl, rfl⟩
  | payOffer offerAmt userAmt answers random =>
      simp only [planSend, payOffer] at h
      grind [pendingInfo]
  | payHumanReadableName userAmt resolvers random =>
      simp only [planSend, payHumanReadableName] at h
      split at h
      · exact nomatch h
      · split at h
        · exact nomatch h
        · obtain rfl := Except.ok.inj h
          exact ⟨rfl, rfl⟩

end PaymentSend
