import Scorer.EventReplayProofs

/-! # What `sendpayment` pays

    The command reads its argument as an offer, a human-readable name or a BOLT11
    invoice and settles on an amount; it records the amount, waits for the write, and
    asks the `ChannelManager` to pay.  Event handlers run while it waits.

    * `Agreed`: the amount that the instrument, the user and the answers agree on;
    * `paid_as_agreed`: only that amount is recorded and paid, and without one the
      store is as before. -/

namespace PaymentAgreed

open PaymentStore PaymentSend PaymentNode Replay EventReplay

/-! ## The argument -/

/-- What a `sendpayment` argument can be. -/
inductive Instrument where
  | offer (amount : Option OfferAmount)
  | humanReadableName
  | invoice (invoice : Bolt11Invoice)
  deriving DecidableEq, Repr

/-- `Offer::from_str` with `Offer::amount`, `HumanReadableName::from_encoded` and
    `Bolt11Invoice::from_str`. -/
structure Parsers where
  offer             : String → Option (Option OfferAmount)
  humanReadableName : String → Bool
  invoice           : String → Option Bolt11Invoice

/-- The argument is tried as an offer, as a name and as an invoice. -/
def parseInstrument (P : Parsers) (invoiceStr : String) : Option Instrument :=
  match P.offer invoiceStr with
  | some amount => some (.offer amount)
  | none =>
      if P.humanReadableName invoiceStr then some .humanReadableName
      else (P.invoice invoiceStr).map .invoice

/-- `str::parse::<u64>`: a `+` may stand before the digits. -/
def parseU64 (content : String) : Option UInt64 :=
  let chars := content.toList
  let digits := if chars.head? = some '+' then chars.tail else chars
  if digits = [] ∨ ¬ digits.all Char.isDigit then none
  else
    let amount := Nat.ofDigitChars 10 digits 0
    if amount < 2 ^ 64 then some (UInt64.ofNat amount) else none

/-- The instrument and the amount in the words of the command; `none` when a message
    is printed instead. -/
def parseSendPayment (P : Parsers) : List String → Option (Instrument × Option UInt64)
  | [] => none
  | [invoiceStr] => (parseInstrument P invoiceStr).map (·, none)
  | invoiceStr :: amtMsatStr :: _ =>
      (parseU64 amtMsatStr).bind fun amt => (parseInstrument P invoiceStr).map (·, some amt)

/-- A compressed key. -/
abbrev PublicKey := Vector UInt8 33

/-- The feature bits that the search for resolvers reads. -/
structure NodeFeatures where
  supportsDnsResolution : Bool
  supportsOnionMessages : Bool
  deriving DecidableEq, Repr

/-- A node of the network graph; its id may be no valid key. -/
structure GraphNode where
  announcementInfo : Option NodeFeatures
  asPubkey         : Option PublicKey
  deriving DecidableEq, Repr

/-- A node that can resolve names for others, by its features. -/
def GraphNode.resolver (node : GraphNode) : Option PublicKey :=
  node.announcementInfo.bind fun features =>
    if features.supportsDnsResolution && features.supportsOnionMessages then node.asPubkey
    else none

/-- The loop over the nodes of the graph, with the resolvers found so far. -/
def findDnsResolvers : List GraphNode → List PublicKey → List PublicKey
  | [], dnsResolvers => dnsResolvers
  | node :: rest, dnsResolvers =>
      let found := dnsResolvers ++ node.resolver.toList
      if found.length > 5 then found else findDnsResolvers rest found

/-! ## The command -/

/-- What the user does and what the environment answers. -/
structure Session where
  words       : List String
  answers     : List String
  randomBytes : Bytes32
  graph       : List GraphNode
  /-- the events handled while the write of the record is awaited, its result, the
      answer of the `ChannelManager`, and the events handled after that -/
  meanwhile   : List PaymentEvent
  written     : Bool
  accepted    : Bool
  afterwards  : List PaymentEvent

/-- How many resolvers the command finds. -/
def Session.dnsResolvers (s : Session) : Nat := (findDnsResolvers s.graph []).length

/-- What the `ChannelManager` is asked, and the stores at that moment. -/
structure Asked where
  paymentId : PaymentId
  call      : PayCall
  stores    : PaymentStores

/-- What was asked of the manager, and the stores after it. -/
structure Sent where
  asked  : Option Asked
  stores : PaymentStores

/-- The three arms of the `match` on what was parsed. -/
def planInstrument (s : Session) (userProvidedAmt : Option UInt64) :
    Instrument → Except SendRefusal SendPlan
  | .offer amount => payOffer amount userProvidedAmt s.answers s.randomBytes
  | .humanReadableName => payHumanReadableName userProvidedAmt s.dnsResolvers s.randomBytes
  | .invoice invoice => sendPayment invoice userProvidedAmt

/-- From the insertion of the record to the end of the command. -/
def executePlan (s : Session) (plan : SendPlan) (st : PaymentStores) : Sent :=
  let recorded := run handlePaymentEvent s.meanwhile
    { st with outbound := recordPending plan.paymentId plan.info st.outbound }
  if s.written then
    let answered := run handlePaymentEvent s.afterwards recorded
    { asked := some ⟨plan.paymentId, plan.call, recorded⟩
      stores :=
        if ¬ s.accepted ∧ marksRejection plan.call then
          { answered with outbound := sendRejected plan.paymentId answered.outbound }
        else answered }
  else ⟨none, recorded⟩

/-- The `sendpayment` command, on the stores as they are when it takes their lock. -/
def sendpayment (P : Parsers) (s : Session) (st : PaymentStores) : Sent :=
  match parseSendPayment P s.words with
  | none => ⟨none, st⟩
  | some (instrument, userProvidedAmt) =>
      match planInstrument s userProvidedAmt instrument with
      | .error _ => ⟨none, st⟩
      | .ok plan => executePlan s plan st

/-! ## What was agreed -/

/-- The Bitcoin amount that the instrument itself states. -/
def fixedAmount : Instrument → Option UInt64
  | .offer (some (.bitcoin amountMsats)) => some amountMsats
  | .offer _ => none
  | .humanReadableName => none
  | .invoice invoice => invoice.amountMilliSatoshis

/-- A line that starts with `Y`, with none before it that starts with `N`. -/
def Confirmed (answers : List String) : Prop :=
  ∃ before line after, answers = before ++ line :: after ∧
    line.toList.head? = some 'Y' ∧ ∀ l ∈ before, l.toList.head? ≠ some 'N'

/-- The amount that an instrument and a user agree on: the instrument's if it has one, the
    user's if he gave one, and one of the two. -/
structure Agreed (s : Session) (instrument : Instrument) (user : Option UInt64)
    (amtMsat : UInt64) : Prop where
  fixed : ∀ fixedAmt, fixedAmount instrument = some fixedAmt → amtMsat = fixedAmt
  provided : ∀ userAmt, user = some userAmt → amtMsat = userAmt
  stated : user = none → (fixedAmount instrument).isSome
  confirmed : ∀ amount, instrument = .offer amount → user = none → Confirmed s.answers
  resolvable : instrument = .humanReadableName → s.dnsResolvers ≠ 0

/-- What the `ChannelManager` pays when it is asked to pay an invoice. -/
structure InvoicePayment where
  amount   : Bolt11Invoice → Option UInt64 → Option UInt64
  explicit : ∀ invoice amt, amount invoice (some amt) = some amt
  implicit : ∀ invoice, amount invoice none = invoice.amountMilliSatoshis

/-- The amount of a call. -/
def paidAmount (L : InvoicePayment) : PayCall → Option UInt64
  | .payForBolt11Invoice invoice requiredAmountMsat => L.amount invoice requiredAmountMsat
  | .sendSpontaneousPayment _ amtMsat => some amtMsat
  | .payForOffer amtMsat => some amtMsat
  | .payForOfferFromHumanReadableName amtMsat => some amtMsat

/-- The `amt_msat` of the record of a payment. -/
def recordedAmount (st : PaymentStores) (id : PaymentId) : Option MillisatAmount :=
  st.outbound[id]?.map PaymentInfo.amtMsat

variable {P : Parsers} {L : InvoicePayment} {s : Session} {st : PaymentStores}
  {user : Option UInt64} {amt : UInt64} {plan : SendPlan} {refusal : SendRefusal}

/-! ## The answers -/

/-- An offer is paid after one of the two answers that mean yes. -/
theorem confirmOffer_true {answers : List String} :
    confirmOffer answers = some true ↔ Confirmed answers := by
  induction answers with
  | nil =>
      refine ⟨(by rintro ⟨⟩), ?_⟩
      rintro ⟨before, line, after, heq, -⟩
      exact absurd heq.symm (List.append_ne_nil_of_right_ne_nil _ (List.cons_ne_nil _ _))
  | cons line rest ih =>
      rw [confirmOffer]
      by_cases hy : line.toList.head? = some 'Y'
      · rw [if_pos hy]
        exact ⟨fun _ => ⟨[], line, rest, rfl, hy, (by rintro _ ⟨⟩)⟩, fun _ => rfl⟩
      rw [if_neg hy]
      by_cases hn : line.toList.head? = some 'N'
      · rw [if_pos hn]
        refine ⟨(by rintro ⟨⟩), ?_⟩
        rintro ⟨before, line', after, heq, hy', hbefore⟩
        cases before with
        | nil => exact absurd ((List.cons.inj heq).1 ▸ hy') hy
        | cons l before =>
            exact absurd hn ((List.cons.inj heq).1 ▸ hbefore l List.mem_cons_self)
      · rw [if_neg hn, ih]
        constructor
        · rintro ⟨before, line', after, rfl, hy', hbefore⟩
          -- a line that starts with neither letter is passed over
          refine ⟨line :: before, line', after, rfl, hy', fun l hl => ?_⟩
          rcases List.mem_cons.mp hl with rfl | hl
          · exact hn
          · exact hbefore l hl
        · rintro ⟨before, line', after, heq, hy', hbefore⟩
          cases before with
          | nil => exact absurd ((List.cons.inj heq).1 ▸ hy') hy
          | cons l before =>
              exact ⟨before, line', after, (List.cons.inj heq).2, hy',
                fun l hl => hbefore l (List.mem_cons_of_mem _ hl)⟩

/-! ## The amount of a plan -/

/-- A plan that records and pays one amount. -/
structure Pays (L : InvoicePayment) (plan : SendPlan) (amt : UInt64) : Prop where
  recorded : plan.info.amtMsat = ⟨some amt⟩
  paid : paidAmount L plan.call = some amt

/-- An invoice that is paid is paid the amount agreed on. -/
theorem sendPayment_ok {invoice : Bolt11Invoice} (h : sendPayment invoice user = .ok plan) :
    ∃ amt, Agreed s (.invoice invoice) user amt ∧ Pays L plan amt := by
  have hpaid : ∀ amt, paidAmount L (.payForBolt11Invoice invoice (some amt)) = some amt :=
    L.explicit invoice
  cases hinv : invoice.amountMilliSatoshis with
  | none =>
      cases user with
      | none => simp only [sendPayment, hinv] at h; cases h
      | some amt =>
          simp only [sendPayment, hinv] at h
          obtain rfl := Except.ok.inj h
          refine ⟨amt, ⟨fun f hf => ?_, fun u hu => Option.some.inj hu, (by rintro ⟨⟩),
            (by rintro _ ⟨⟩), (by rintro ⟨⟩)⟩, rfl, hpaid amt⟩
          cases hinv.symm.trans hf
  | some invAmt =>
      cases user with
      | none =>
          simp only [sendPayment, hinv] at h
          obtain rfl := Except.ok.inj h
          refine ⟨invAmt, ⟨fun f hf => Option.some.inj (hinv.symm.trans hf),
            (by rintro _ ⟨⟩), fun _ => ?_, (by rintro _ ⟨⟩), (by rintro ⟨⟩)⟩,
            rfl, (L.implicit invoice).trans hinv⟩
          exact Option.isSome_iff_exists.mpr ⟨invAmt, hinv⟩
      | some reqAmt =>
          simp only [sendPayment, hinv] at h
          split at h
          · cases h
          · rename_i heq
            obtain rfl := Except.ok.inj h
            have heq' : invAmt = reqAmt := Decidable.not_not.mp heq
            refine ⟨invAmt, ⟨fun f hf => Option.some.inj (hinv.symm.trans hf),
              fun u hu => heq'.trans (Option.some.inj hu), (by rintro ⟨⟩),
              (by rintro _ ⟨⟩), (by rintro ⟨⟩)⟩, rfl, ?_⟩
            rw [heq']
            exact hpaid reqAmt

/-- One that is refused had none. -/
theorem sendPayment_error {invoice : Bolt11Invoice}
    (h : sendPayment invoice user = .error refusal) (amt : UInt64) :
    ¬ Agreed s (.invoice invoice) user amt := by
  intro ha
  cases hinv : invoice.amountMilliSatoshis with
  | none =>
      cases user with
      | none => exact Bool.noConfusion ((congrArg Option.isSome hinv).symm.trans (ha.stated rfl))
      | some u => simp only [sendPayment, hinv] at h; cases h
  | some invAmt =>
      cases user with
      | none => simp only [sendPayment, hinv] at h; cases h
      | some reqAmt =>
          simp only [sendPayment, hinv] at h
          split at h
          · rename_i hne
            exact hne ((ha.fixed invAmt hinv).symm.trans (ha.provided reqAmt rfl))
          · cases h

/-- The plan of an offer for an amount. -/
def offerPlan (s : Session) (amtMsat : UInt64) : SendPlan :=
  ⟨s.randomBytes, pendingInfo none amtMsat, .payForOffer amtMsat⟩

/-- What the offer branch comes to, with and without an amount of the user. -/
theorem payOffer_user (amount : Option OfferAmount) (amt : UInt64) :
    payOffer amount (some amt) s.answers s.randomBytes =
      match fixedAmount (.offer amount) with
      | some fixedAmt =>
          if amt ≠ fixedAmt then .error (.offerAmountMismatch fixedAmt)
          else .ok (offerPlan s fixedAmt)
      | none => .ok (offerPlan s amt) := by
  cases amount with
  | none => simp [payOffer, fixedAmount, offerPlan]
  | some amount =>
      cases amount with
      | bitcoin a => simp [payOffer, fixedAmount, offerPlan]
      | currency code a => simp [payOffer, fixedAmount, offerPlan]

/-- An offer without an amount of the user asks for a confirmation of its own. -/
theorem payOffer_none (amount : Option OfferAmount) :
    payOffer amount none s.answers s.randomBytes =
      match fixedAmount (.offer amount) with
      | some fixedAmt =>
          match confirmOffer s.answers with
          | some true => .ok (offerPlan s fixedAmt)
          | some false => .error .offerDeclined
          | none => .error .endOfInput
      | none => .error (.offerNotBitcoin amount) := by
  cases amount with
  | none => rfl
  | some amount =>
      cases amount with
      | bitcoin a =>
          simp only [payOffer, fixedAmount, offerPlan]
          cases confirmOffer s.answers with
          | none => rfl
          | some answer => cases answer <;> rfl
      | currency code a => rfl

/-- An offer that is paid is paid the amount agreed on. -/
theorem payOffer_ok {amount : Option OfferAmount}
    (h : payOffer amount user s.answers s.randomBytes = .ok plan) :
    ∃ amt, Agreed s (.offer amount) user amt ∧ Pays L plan amt := by
  cases user with
  | none =>
      rw [payOffer_none] at h
      -- without an amount of the user, the offer's own must be confirmed
      cases hfix : fixedAmount (.offer amount) with
      | none => rw [hfix] at h; cases h
      | some fixedAmt =>
          simp only [hfix] at h
          split at h
          · rename_i hyes
            obtain rfl := Except.ok.inj h
            exact ⟨fixedAmt, ⟨fun f hf => Option.some.inj (hfix.symm.trans hf),
              (by rintro _ ⟨⟩), fun _ => Option.isSome_iff_exists.mpr ⟨_, hfix⟩,
              fun _ _ _ => confirmOffer_true.mp hyes, (by rintro ⟨⟩)⟩, rfl, rfl⟩
          · cases h
          · cases h
  | some u =>
      rw [payOffer_user] at h
      cases hfix : fixedAmount (.offer amount) with
      | none =>
          simp only [hfix] at h
          obtain rfl := Except.ok.inj h
          exact ⟨u, ⟨(fun f hf => by cases hfix.symm.trans hf), fun _ hu => Option.some.inj hu,
            (by rintro ⟨⟩), (by rintro _ _ ⟨⟩), (by rintro ⟨⟩)⟩, rfl, rfl⟩
      | some fixedAmt =>
          simp only [hfix] at h
          split at h
          · cases h
          · rename_i heq
            obtain rfl := Except.ok.inj h
            exact ⟨fixedAmt, ⟨fun f hf => Option.some.inj (hfix.symm.trans hf),
              fun _ hu => (Decidable.not_not.mp heq).symm.trans (Option.some.inj hu),
              (by rintro ⟨⟩), (by rintro _ _ ⟨⟩), (by rintro ⟨⟩)⟩, rfl, rfl⟩

/-- One that is refused had none. -/
theorem payOffer_error {amount : Option OfferAmount}
    (h : payOffer amount user s.answers s.randomBytes = .error refusal) (amt : UInt64) :
    ¬ Agreed s (.offer amount) user amt := by
  intro ha
  cases user with
  | none =>
      rw [payOffer_none] at h
      obtain ⟨fixedAmt, hfix⟩ := Option.isSome_iff_exists.mp (ha.stated rfl)
      rw [hfix, confirmOffer_true.mpr (ha.confirmed amount rfl rfl)] at h
      cases h
  | some u =>
      rw [payOffer_user] at h
      cases hfix : fixedAmount (.offer amount) with
      | none => rw [hfix] at h; cases h
      | some fixedAmt =>
          simp only [hfix] at h
          split at h
          · rename_i hne
            exact hne ((ha.provided u rfl).symm.trans (ha.fixed fixedAmt hfix))
          · cases h

theorem planInstrument_ok {instrument : Instrument}
    (h : planInstrument s user instrument = .ok plan) :
    ∃ amt, Agreed s instrument user amt ∧ Pays L plan amt := by
  cases instrument with
  | offer amount => exact payOffer_ok h
  | invoice invoice => exact sendPayment_ok h
  | humanReadableName =>
      cases user with
      | none => cases h
      | some u =>
          simp only [planInstrument, payHumanReadableName] at h
          split at h
          · cases h
          · rename_i hres
            obtain rfl := Except.ok.inj h
            exact ⟨u, ⟨(by rintro _ ⟨⟩), fun _ hu => Option.some.inj hu,
              (by rintro ⟨⟩), (by rintro _ ⟨⟩), fun _ => hres⟩, rfl, rfl⟩

theorem planInstrument_error {instrument : Instrument}
    (h : planInstrument s user instrument = .error refusal) (amt : UInt64) :
    ¬ Agreed s instrument user amt := by
  cases instrument with
  | offer amount => exact payOffer_error h amt
  | invoice invoice => exact sendPayment_error h amt
  | humanReadableName =>
      intro ha
      cases user with
      | none => exact Bool.noConfusion (ha.stated rfl)
      | some u =>
          simp only [planInstrument, payHumanReadableName, if_neg (ha.resolvable rfl)] at h
          cases h

/-! ## The record while the command waits -/

/-- No event changes the amount of a record. -/
theorem recordedAmount_handled (ev : PaymentEvent) (st : PaymentStores) (id : PaymentId) :
    recordedAmount (handlePaymentEvent ev st) id = recordedAmount st id := by
  rw [recordedAmount, outbound_handled, recordedAmount]
  cases hend : endOf id ev with
  | none => rfl
  | some ending =>
      cases hr : st.outbound[id]? with
      | none => rfl
      | some payment =>
          cases ending with
          | none => rfl
          | some pre => rfl

/-- Events do not change a recorded amount. -/
theorem recordedAmount_run (es : List PaymentEvent) (st : PaymentStores) (id : PaymentId) :
    recordedAmount (run handlePaymentEvent es st) id = recordedAmount st id := by
  induction es generalizing st with
  | nil => rfl
  | cons ev es ih =>
      rw [run_cons, ih]
      exact recordedAmount_handled ev st id

theorem recordedAmount_rejected (st : PaymentStores) (id a : PaymentId) :
    recordedAmount { st with outbound := sendRejected a st.outbound } id =
      recordedAmount st id := by
  show (setFailed a st.outbound)[id]?.map PaymentInfo.amtMsat = _
  rw [setFailed_get, recordedAmount]
  split
  · rw [Option.map_map]
    rfl
  · rfl

/-- What is recorded is the amount of the plan. -/
theorem recordedAmount_recorded (plan : SendPlan) (st : PaymentStores) :
    recordedAmount { st with outbound := recordPending plan.paymentId plan.info st.outbound }
      plan.paymentId = some plan.info.amtMsat := by
  show (recordPending plan.paymentId plan.info st.outbound)[plan.paymentId]?.map
    PaymentInfo.amtMsat = _
  rw [recordPending_get, if_pos rfl]
  rfl

/-- The record of the plan has the amount of the plan, from the call to the end. -/
theorem executePlan_asked {a : Asked} (h : (executePlan s plan st).asked = some a) :
    a.paymentId = plan.paymentId ∧ a.call = plan.call ∧
      recordedAmount a.stores plan.paymentId = some plan.info.amtMsat ∧
      recordedAmount (executePlan s plan st).stores plan.paymentId =
        some plan.info.amtMsat := by
  dsimp only [executePlan] at h ⊢
  by_cases hw : s.written = true
  · rw [if_pos hw] at h ⊢
    obtain rfl := Option.some.inj h
    -- the handlers that run while the write is awaited leave the amount alone
    have hrecorded : recordedAmount (run handlePaymentEvent s.meanwhile
        { st with outbound := recordPending plan.paymentId plan.info st.outbound })
          plan.paymentId = some plan.info.amtMsat := by
      rw [recordedAmount_run, recordedAmount_recorded]
    refine ⟨rfl, rfl, hrecorded, ?_⟩
    dsimp only
    split
    · rw [recordedAmount_rejected, recordedAmount_run]
      exact hrecorded
    · rw [recordedAmount_run]
      exact hrecorded
  · rw [if_neg hw] at h
    cases h

/-! ## The law -/

/-- The words name an instrument for which the amount is agreed. -/
def Settled (P : Parsers) (s : Session) (amtMsat : UInt64) : Prop :=
  ∃ instrument user, parseSendPayment P s.words = some (instrument, user) ∧
    Agreed s instrument user amtMsat

/-- Two amounts that are agreed on are the same. -/
theorem Agreed.unique {instrument : Instrument} {amt amt' : UInt64}
    (h : Agreed s instrument user amt) (h' : Agreed s instrument user amt') : amt = amt' := by
  cases user with
  | some u => exact (h.provided u rfl).trans (h'.provided u rfl).symm
  | none =>
      obtain ⟨fixedAmt, hfixed⟩ := Option.isSome_iff_exists.mp (h.stated rfl)
      exact (h.fixed fixedAmt hfixed).trans (h'.fixed fixedAmt hfixed).symm

/-- A command that stops before the record has no agreed amount. -/
theorem not_settled_of_refused (hplan : ∀ instrument user,
      parseSendPayment P s.words = some (instrument, user) →
        ∃ refusal, planInstrument s user instrument = .error refusal) (amt : UInt64) :
    ¬ Settled P s amt := by
  rintro ⟨instrument, user, hparse, hagreed⟩
  obtain ⟨refusal, hrefused⟩ := hplan instrument user hparse
  exact planInstrument_error hrefused amt hagreed

/-- **PAID AS AGREED AND RECORDED**: the `ChannelManager` is asked to pay only an
    amount on which the instrument, the user and the answers agree, and that is the
    amount of the record then and at the end; where there is none, nothing is asked
    and the stores are as before; and where there is one, it is asked for as soon as
    the record is written. -/
theorem paid_as_agreed (P : Parsers) (L : InvoicePayment) (s : Session) (st : PaymentStores) :
    (∀ a, (sendpayment P s st).asked = some a → ∃ amt, Settled P s amt ∧
      paidAmount L a.call = some amt ∧
      recordedAmount a.stores a.paymentId = some ⟨some amt⟩ ∧
      recordedAmount (sendpayment P s st).stores a.paymentId = some ⟨some amt⟩) ∧
    ((∀ amt, ¬ Settled P s amt) →
      (sendpayment P s st).asked = none ∧ (sendpayment P s st).stores = st) ∧
    (∀ amt, Settled P s amt → s.written = true →
      ∃ a, (sendpayment P s st).asked = some a ∧ paidAmount L a.call = some amt) := by
  cases hparse : parseSendPayment P s.words with
  | none =>
      have heq : sendpayment P s st = ⟨none, st⟩ := by rw [sendpayment, hparse]
      have hnot := not_settled_of_refused (P := P) (s := s) fun instrument user hparse' => by
        cases hparse.symm.trans hparse'
      rw [heq]
      exact ⟨(by rintro _ ⟨⟩), fun _ => ⟨rfl, rfl⟩, fun amt hsettled => absurd hsettled (hnot amt)⟩
  | some parsed =>
      obtain ⟨instrument, user⟩ := parsed
      cases hplan : planInstrument s user instrument with
      | error refusal =>
          have heq : sendpayment P s st = ⟨none, st⟩ := by
            simp only [sendpayment, hparse, hplan]
          have hnot := not_settled_of_refused (P := P) (s := s) fun instrument' user' hparse' => by
            cases hparse.symm.trans hparse'
            exact ⟨refusal, hplan⟩
          rw [heq]
          exact ⟨(by rintro _ ⟨⟩), fun _ => ⟨rfl, rfl⟩,
            fun amt hsettled => absurd hsettled (hnot amt)⟩
      | ok plan =>
          have heq : sendpayment P s st = executePlan s plan st := by
            simp only [sendpayment, hparse, hplan]
          -- there is a plan, so an amount is agreed on, and it is the only one
          obtain ⟨amt, hagreed, hpays⟩ := planInstrument_ok (L := L) hplan
          have hsettled : Settled P s amt := ⟨instrument, user, hparse, hagreed⟩
          rw [heq]
          refine ⟨fun a ha => ⟨amt, hsettled, ?_⟩, fun hnot => absurd hsettled (hnot amt),
            fun amt' hsettled' hwritten => ?_⟩
          · obtain ⟨hid, hcall, hthen, hend⟩ := executePlan_asked ha
            rw [hid, hcall, hthen, hend, hpays.recorded]
            exact ⟨hpays.paid, rfl, rfl⟩
          · obtain ⟨instrument', user', hparse', hagreed'⟩ := hsettled'
            cases hparse.symm.trans hparse'
            rw [hagreed'.unique hagreed, executePlan, if_pos hwritten]
            exact ⟨_, rfl, hpays.paid⟩

/-- An amount that is passed is paid, else that of the invoice. -/
def plainInvoicePayment : InvoicePayment :=
  ⟨fun invoice amt => amt.or invoice.amountMilliSatoshis, fun _ _ => rfl, fun _ => rfl⟩

/-- One offer over 7 msat can be parsed. -/
def offerParsers : Parsers :=
  ⟨fun text => if text = "lno1" then some (some (.bitcoin 7)) else none, fun _ => false,
    fun _ => none⟩

/-- The offer is confirmed at the second answer. -/
def offerSession : Session :=
  ⟨["lno1"], ["how much", "Yes"], Vector.replicate 32 1, [], [], true, true, []⟩

/-- The session settles on 7 msat. -/
theorem offerSession_settled : Settled offerParsers offerSession 7 := by
  refine ⟨.offer (some (.bitcoin 7)), none, by decide, ?_⟩
  exact
    { fixed := fun _ h => Option.some.inj h
      provided := fun _ h => by cases h
      stated := fun _ => rfl
      confirmed := fun _ _ _ => ⟨["how much"], "Yes", [], rfl, by decide, by decide⟩
      resolvable := fun h => by cases h }

/-- An offer of 7 msat, confirmed. -/
theorem paid_as_agreed_offer : ∃ a,
    (sendpayment offerParsers offerSession ⟨∅, ∅⟩).asked = some a ∧
      paidAmount plainInvoicePayment a.call = some 7 ∧
      recordedAmount a.stores a.paymentId = some ⟨some 7⟩ := by
  obtain ⟨hasked, -, hpaid⟩ :=
    paid_as_agreed offerParsers plainInvoicePayment offerSession ⟨∅, ∅⟩
  obtain ⟨a, ha, hamount⟩ := hpaid 7 offerSession_settled rfl
  obtain ⟨amt, -, hamount', hrecorded, -⟩ := hasked a ha
  obtain rfl := Option.some.inj (hamount.symm.trans hamount')
  exact ⟨a, ha, hamount, hrecorded⟩

/-- An invoice over 1000 msat without an amount of the user. -/
example :
    let s : Session := ⟨["lnbc1"], [], Vector.replicate 32 0, [], [], true, true, []⟩
    ((sendpayment ⟨fun _ => none, fun _ => false, fun _ => some (invoiceOf 1)⟩ s
      ⟨∅, ∅⟩).asked.bind fun a => paidAmount plainInvoicePayment a.call) = some 1000 := by
  decide +kernel

end PaymentAgreed
