import Scorer.ManagerBookProofs

/-! # A settled record is final

    `settledWith` is what a `Succeeded` record says: its preimage.  Seven changes
    reach the two stores.  Those of the events leave settled records alone because
    a payment ends once for good with its `PaymentSent` and a hash is claimed with
    one preimage; those of a send command do not look at the record they overwrite.
    So records stay settled in every run whose send commands act on no settled
    payment (`settled_records_final`), and need not otherwise
    (`paid_twice_unsettles`). -/

namespace SettledRecord

open LabelledRun WriteOrder LockedStore PaymentStore PaymentSend PaymentWrite
open PaymentNode ManagerBook

/-- The preimage of the record of `id`, when that record is `Succeeded`. -/
def settledWith (m : Std.ExtTreeMap Bytes32 PaymentInfo) (id : Bytes32) :
    Option (Option PaymentPreimage) :=
  m[id]?.bind fun info : PaymentInfo =>
    if info.status = .succeeded then some info.preimage else none

/-- A settled record, with its preimage. -/
theorem settledWith_eq_some {m : Std.ExtTreeMap Bytes32 PaymentInfo} {id : Bytes32}
    {pre : Option PaymentPreimage} :
    settledWith m id = some pre ↔
      ∃ info : PaymentInfo, m[id]? = some info ∧ info.status = .succeeded ∧
        info.preimage = pre := by
  simp only [settledWith, Option.bind_eq_some_iff, Option.ite_none_right_eq_some,
    Option.some.injEq]

/-! ## What each change does to settled records -/

section Changes

variable (m : Std.ExtTreeMap Bytes32 PaymentInfo) (id a : Bytes32)

/-- Recording a payment unsettles its own id. -/
theorem settledWith_recordPending {info : PaymentInfo} (hinfo : info.status = .pending) :
    settledWith (recordPending id info m) a = if a = id then none else settledWith m a := by
  rw [settledWith, recordPending_get]
  by_cases h : a = id
  · simp [h, hinfo]
  · rw [if_neg h, if_neg h]
    rfl

theorem settledWith_setFailed :
    settledWith (setFailed id m) a = if a = id then none else settledWith m a := by
  rw [settledWith, setFailed_get]
  by_cases h : a = id
  · subst h
    cases m[a]? <;> simp
  · rw [if_neg h, if_neg h]
    rfl

/-- `PaymentSent` settles what has a record. -/
theorem settledWith_paymentSent (pre : PaymentPreimage) :
    settledWith (paymentSent id pre m) a =
      if a = id then m[a]?.map fun _ => some pre else settledWith m a := by
  rw [settledWith, paymentSent_get]
  by_cases h : a = id
  · subst h
    cases m[a]? <;> simp
  · rw [if_neg h, if_neg h]
    rfl

/-- A claim settles its hash with the preimage of its purpose. -/
theorem settledWith_paymentClaimed (purpose : PaymentPurpose) (amt : UInt64) :
    settledWith (paymentClaimed id purpose amt m) a =
      if a = id then some (claimedParts purpose).1 else settledWith m a := by
  rw [settledWith, paymentClaimed_get]
  by_cases h : a = id
  · simp [h, claimedInfo]
  · rw [if_neg h, if_neg h]
    rfl

/-- An invoice unsettles its own hash, which is fresh. -/
theorem settledWith_getInvoice (amt : UInt64) (invoice : CreatedInvoice) :
    settledWith (getInvoice amt (some invoice) m) a =
      if a = invoice.paymentHash then none else settledWith m a := by
  rw [settledWith, getInvoice, insert_get]
  by_cases h : a = invoice.paymentHash
  · simp [h]
  · rw [if_neg h, if_neg h]
    rfl

end Changes

/-! ## What a run relies on -/

variable {β : Type} {E : NodeEnv β} {s t : Node β} {a : NodeAction} {id : PaymentId}
  {claim : PaymentHash → Option PaymentPreimage}

/-- A hash is always claimed with the same preimage. -/
def ClaimsWith (claim : PaymentHash → Option PaymentPreimage) : PaymentEvent → Prop
  | .paymentClaimed paymentHash purpose _ => (claimedParts purpose).1 = claim paymentHash
  | _ => True

instance claimsWithDecidable : (ev : PaymentEvent) → Decidable (ClaimsWith claim ev)
  | .paymentClaimed paymentHash purpose _ =>
      inferInstanceAs (Decidable ((claimedParts purpose).1 = claim paymentHash))
  | .paymentSent _ _ | .paymentFailed _ => inferInstanceAs (Decidable True)

/-- The payment of a `PaymentSent`. -/
def sentId : PaymentEvent → Option PaymentId
  | .paymentSent paymentId _ => paymentId
  | _ => none

/-- The payments whose `PaymentSent` has not been handed to its handler. -/
def sentIds (s : Node β) : List PaymentId := s.manager.events.filterMap sentId

/-- The process keeps running, the hash of a new invoice is fresh, a payment that was
    sent is remembered until its `PaymentSent` is handled, which comes after the
    earlier events that end this payment, and a hash is claimed with one preimage. -/
def Promised (claim : PaymentHash → Option PaymentPreimage) (s : Node β) :
    NodeAction → Prop
  | .getInvoice _ (some invoice) => s.inbound.mem[invoice.paymentHash]? = none
  | .emit ev => ClaimsWith claim ev
  | .handle j => ∀ id ∈ s.manager.events[j]?.bind sentId,
      id ∉ (s.manager.events.take j).filterMap terminalId
  | .forget id => id ∉ sentIds s
  | .crash => False
  | _ => True

instance promisedDecidable (s : Node β) : (a : NodeAction) → Decidable (Promised claim s a)
  | .getInvoice _ (some invoice) =>
      inferInstanceAs (Decidable (s.inbound.mem[invoice.paymentHash]? = none))
  | .emit ev => inferInstanceAs (Decidable (ClaimsWith claim ev))
  | .handle j => inferInstanceAs (Decidable (∀ id ∈ s.manager.events[j]?.bind sentId, _))
  | .forget id => inferInstanceAs (Decidable (id ∉ sentIds s))
  | .crash => inferInstanceAs (Decidable False)
  | .getInvoice _ none | .send _ | .resume _ | .accept _ | .reject _ | .markRejected _
  | .settleInbound _ _ | .settleOutbound _ _ | .boot _ _ | .started =>
      inferInstanceAs (Decidable True)

/-- The payment that a step of a send command acts on: it inserts the record, has
    the payment accepted, or marks it `Failed` after a rejection. -/
def actsOn (E : NodeEnv β) (s : Node β) : NodeAction → Option PaymentId
  | .send cmd => (planSend E.sha256 cmd).toOption.map SendPlan.paymentId
  | .accept k => s.tasks[k]?.bind sendingId
  | .markRejected k => s.tasks[k]?.bind sendingId
  | _ => none

/-- No send command acts on a payment whose record is settled. -/
def SendsSpareSettled (E : NodeEnv β) (s : Node β) (a : NodeAction) : Prop :=
  ∀ id ∈ actsOn E s a, settledWith s.outbound.mem id = none

instance sendsSpareSettledDecidable (s : Node β) (a : NodeAction) :
    Decidable (SendsSpareSettled E s a) :=
  inferInstanceAs (Decidable (∀ id ∈ actsOn E s a, settledWith s.outbound.mem id = none))

/-- A payment that was sent is remembered and over, and nothing ends it after its
    `PaymentSent`. -/
structure SentOnce (s : Node β) : Prop where
  flying : Remembered s
  sent : ∀ id ∈ sentIds s, id ∈ s.manager.recentPayments ∧ id ∉ s.manager.inFlight
  last : s.manager.events.Pairwise fun ev ev' => ∀ id ∈ sentId ev, terminalId ev' ≠ some id

/-- The manager may still end the payment of a settled record only by the same
    preimage again. -/
structure Closed (s : Node β) (id : PaymentId) (pre : Option PaymentPreimage) : Prop where
  flight : id ∉ s.manager.inFlight
  events : ∀ ev ∈ s.manager.events, terminalId ev = some id →
    ∃ p, ev = .paymentSent (some id) p ∧ pre = some p

/-- A running process whose stores and manager agree on what is settled. -/
structure Agreed (claim : PaymentHash → Option PaymentPreimage) (s : Node β) : Prop where
  running : s.phase = .running
  sentOnce : SentOnce s
  claims : ∀ ev ∈ s.manager.events, ClaimsWith claim ev
  inbound : ∀ h pre, settledWith s.inbound.mem h = some pre → pre = claim h
  outbound : ∀ id pre, settledWith s.outbound.mem id = some pre → Closed s id pre

/-- What was settled stays settled, with its preimage. -/
structure Keeps (s t : Node β) : Prop where
  inbound : ∀ h pre, settledWith s.inbound.mem h = some pre →
    settledWith t.inbound.mem h = some pre
  outbound : ∀ id pre, settledWith s.outbound.mem id = some pre →
    settledWith t.outbound.mem id = some pre

theorem Keeps.refl (s : Node β) : Keeps s s := ⟨fun _ _ h => h, fun _ _ h => h⟩

theorem Keeps.trans {u : Node β} (h1 : Keeps s t) (h2 : Keeps t u) : Keeps s u :=
  ⟨fun h pre hs => h2.inbound h pre (h1.inbound h pre hs),
    fun id pre hs => h2.outbound id pre (h1.outbound id pre hs)⟩

/-! ## One step -/

/-- A payment stays closed as long as nothing of it comes back. -/
private theorem closed_of_sub {pre : Option PaymentPreimage} (hs : Closed s id pre)
    (hfly : id ∈ t.manager.inFlight → id ∈ s.manager.inFlight)
    (hev : ∀ ev ∈ t.manager.events, terminalId ev = some id → ev ∈ s.manager.events) :
    Closed t id pre where
  flight := fun h => hs.flight (hfly h)
  events := fun ev hmem hid => hs.events ev (hev ev hmem hid) hid

/-- A step after which the same is settled and the manager has nothing new. -/
private theorem agreed_of_same (hs : Agreed claim s) (hphase : t.phase = s.phase)
    (hb : SentOnce t) (hfly : t.manager.inFlight ⊆ s.manager.inFlight)
    (hev : t.manager.events ⊆ s.manager.events)
    (hin : ∀ h, settledWith t.inbound.mem h = settledWith s.inbound.mem h)
    (hout : ∀ id, settledWith t.outbound.mem id = settledWith s.outbound.mem id) :
    Agreed claim t ∧ Keeps s t := by
  constructor
  · refine ⟨hphase.trans hs.running, hb, fun ev he => hs.claims ev (hev he), ?_, ?_⟩
    · intro h pre hset
      exact hs.inbound h pre ((hin h).symm.trans hset)
    · intro id pre hset
      have hclosed := hs.outbound id pre ((hout id).symm.trans hset)
      exact closed_of_sub hclosed (fun h => hfly h) (fun _ he _ => hev he)
  · exact ⟨fun h _ hset => (hin h).trans hset, fun id _ hset => (hout id).trans hset⟩

/-- Unsettling a key that was not settled changes nothing that is settled. -/
private theorem settledWith_spared {m m' : Std.ExtTreeMap Bytes32 PaymentInfo} {k : Bytes32}
    (hset : ∀ a, settledWith m' a = if a = k then none else settledWith m a)
    (hk : settledWith m k = none) (a : Bytes32) : settledWith m' a = settledWith m a := by
  rw [hset]
  split
  · rename_i heq
    rw [heq, hk]
  · rfl

/-- The queue of events after one of them was taken from it. -/
private theorem mem_of_take {m : ChannelManager} {j : Nat} {ev : PaymentEvent}
    (h : ev ∈ (takeEvent m j).events) : ev ∈ m.events :=
  (List.eraseIdx_sublist _ _).subset h

private theorem closed_take {j : Nat} {pre : Option PaymentPreimage} (hs : Closed s id pre)
    (hman : t.manager = takeEvent s.manager j) : Closed t id pre := by
  refine closed_of_sub hs ?_ ?_
  · rw [hman]
    exact fun h => h
  · rw [hman]
    exact fun e he _ => mem_of_take he

/-- No other event that ends a payment is in the queue when its `PaymentSent` is
    taken. -/
private theorem take_last {j : Nat} {ev ev' : PaymentEvent} (hb : SentOnce s)
    (hp : Promised claim s (.handle j)) (hj : s.manager.events[j]? = some ev)
    (hid : sentId ev = some id) (hmem : ev' ∈ (takeEvent s.manager j).events) :
    terminalId ev' ≠ some id := by
  obtain ⟨hlt, rfl⟩ := List.getElem?_eq_some_iff.mp hj
  have hsplit := hb.last
  rw [← List.take_append_drop j s.manager.events, List.drop_eq_getElem_cons hlt] at hsplit
  rw [takeEvent, List.eraseIdx_eq_take_drop_succ] at hmem
  rcases List.mem_append.mp hmem with hbefore | hafter
  · intro hid'
    refine hp id ?_ (List.mem_filterMap.mpr ⟨ev', hbefore, hid'⟩)
    rw [hj]
    exact hid
  · exact (List.pairwise_cons.mp (List.pairwise_append.mp hsplit).2.1).1 ev' hafter id hid

theorem sentId_terminal {ev : PaymentEvent} (h : sentId ev = some id) :
    terminalId ev = some id := by
  cases ev with
  | paymentSent paymentId p => exact h
  | paymentClaimed => cases h
  | paymentFailed => cases h

/-- A step that leaves the manager alone, or only takes events from its queue. -/
private theorem sentOnce_of_sub (hs : SentOnce s)
    (hrec : t.manager.recentPayments = s.manager.recentPayments)
    (hfly : t.manager.inFlight = s.manager.inFlight)
    (hev : t.manager.events.Sublist s.manager.events) : SentOnce t where
  flying := by
    rw [Remembered, hrec, hfly]
    exact hs.flying
  sent := by
    intro id hid
    rw [hrec, hfly]
    exact hs.sent id ((hev.filterMap sentId).subset hid)
  last := hs.last.sublist hev

/-- No payment succeeds twice, by the promise of the manager. -/
theorem move_sentOnce (hs : SentOnce s) (hrun : s.phase = .running)
    (hp : Promised claim s a) (hm : Move E s a t) : SentOnce t := by
  have hremembered : Remembered t := move_remembered hs.flying hm
  cases hm with
  | refused | recorded | invoiced | resumed | rejected | marked | settledInbound
  | settledOutbound | booted | started => exact sentOnce_of_sub hs rfl rfl (.refl _)
  | @accepted k w plan hrun hk hnew =>
      refine ⟨hremembered, fun id hid => ?_, hs.last⟩
      obtain ⟨hrec, hfly⟩ := hs.sent id hid
      -- the manager refuses an id that it still remembers
      refine ⟨List.mem_cons_of_mem _ hrec, fun h => ?_⟩
      rcases List.mem_cons.mp h with rfl | hold
      · exact hnew hrec
      · exact hfly hold
  | @emitted ev hup hev =>
      refine ⟨hremembered, fun id hid => ?_, ?_⟩
      · -- a payment that was in flight is remembered, and is not in flight any more
        have hids : sentIds { s with manager := emitEvent s.manager ev }
            = sentIds s ++ [ev].filterMap sentId := List.filterMap_append
        rw [hids] at hid
        rcases List.mem_append.mp hid with hold | hnew
        · obtain ⟨hrec, hfly⟩ := hs.sent id hold
          exact ⟨hrec, fun h => hfly (List.mem_filter.mp h).1⟩
        · obtain ⟨ev', hmem, hsent⟩ := List.mem_filterMap.mp hnew
          obtain rfl := List.mem_singleton.mp hmem
          have hterminal := sentId_terminal hsent
          refine ⟨hs.flying id (hev id hterminal), fun h => ?_⟩
          exact of_decide_eq_true (List.mem_filter.mp h).2 hterminal.symm
      · refine List.pairwise_append.mpr ⟨hs.last, List.pairwise_singleton _ _, ?_⟩
        intro ev' hmem ev'' hnew id hid hterminal
        obtain rfl := List.mem_singleton.mp hnew
        exact (hs.sent id (List.mem_filterMap.mpr ⟨ev', hmem, hid⟩)).2 (hev id hterminal)
  | @handled j ev hrun hj =>
      rw [handleEvent]
      split
      · exact sentOnce_of_sub hs rfl rfl (List.eraseIdx_sublist _ _)
      · exact sentOnce_of_sub hs rfl rfl (List.eraseIdx_sublist _ _)
      · exact sentOnce_of_sub hs rfl rfl (List.eraseIdx_sublist _ _)
  | @forgotten id hup hdone =>
      refine ⟨hremembered, fun id' hid => ?_, hs.last⟩
      obtain ⟨hrec, hfly⟩ := hs.sent id' hid
      -- a payment is not forgotten before its `PaymentSent` is handled
      refine ⟨List.mem_filter.mpr ⟨hrec, decide_eq_true ?_⟩, hfly⟩
      rintro rfl
      exact hp hid
  | crashed hup => exact hp.elim
  | startFailed hstart hok => cases hrun.symm.trans hstart

/-- A claim settles its hash with the preimage that it always has. -/
theorem claimed_agreed {j : Nat} {h : PaymentHash} {purpose : PaymentPurpose} {amt : UInt64}
    (hs : Agreed claim s) (hb : SentOnce (handleEvent E s j (.paymentClaimed h purpose amt)))
    (hclaim : (claimedParts purpose).1 = claim h) :
    Agreed claim (handleEvent E s j (.paymentClaimed h purpose amt)) ∧
      Keeps s (handleEvent E s j (.paymentClaimed h purpose amt)) := by
  have hmem : (handleEvent E s j (.paymentClaimed h purpose amt)).inbound.mem
    = paymentClaimed h purpose amt s.inbound.mem := rfl
  refine ⟨⟨hs.running, hb, fun e he => hs.claims e (mem_of_take he), ?_, ?_⟩, ?_,
    fun _ _ hset => hset⟩
  · intro a pre hset
    rw [hmem, settledWith_paymentClaimed] at hset
    split at hset
    · rename_i heq
      rw [heq, ← hclaim]
      exact (Option.some.inj hset).symm
    · exact hs.inbound a pre hset
  · exact fun id pre hset => closed_take (hs.outbound id pre hset) rfl
  · intro a pre hset
    rw [hmem, settledWith_paymentClaimed]
    by_cases heq : a = h
    · rw [if_pos heq, hclaim, hs.inbound a pre hset, heq]
    · rw [if_neg heq]
      exact hset

/-- A `PaymentSent` settles a payment that has ended, or says its preimage again. -/
theorem sent_agreed {j : Nat} {k : PaymentId} {p : PaymentPreimage} (hs : Agreed claim s)
    (hp : Promised claim s (.handle j))
    (hb : SentOnce (handleEvent E s j (.paymentSent (some k) p)))
    (hj : s.manager.events[j]? = some (.paymentSent (some k) p)) :
    Agreed claim (handleEvent E s j (.paymentSent (some k) p)) ∧
      Keeps s (handleEvent E s j (.paymentSent (some k) p)) := by
  have hev : .paymentSent (some k) p ∈ s.manager.events := List.mem_of_getElem? hj
  have hmem : (handleEvent E s j (.paymentSent (some k) p)).outbound.mem
    = paymentSent k p s.outbound.mem := rfl
  refine ⟨⟨hs.running, hb, fun e he => hs.claims e (mem_of_take he), hs.inbound, ?_⟩,
    fun _ _ hset => hset, ?_⟩
  · intro a pre hset
    rw [hmem, settledWith_paymentSent] at hset
    split at hset
    · -- the payment has ended: it is not in flight and has no other event
      rename_i heq
      subst heq
      refine ⟨?_, fun e he hid => absurd hid (take_last hs.sentOnce hp hj rfl he)⟩
      exact (hs.sentOnce.sent a (List.mem_filterMap.mpr ⟨_, hev, rfl⟩)).2
    · exact closed_take (hs.outbound a pre hset) rfl
  · intro a pre hset
    rw [hmem, settledWith_paymentSent]
    by_cases heq : a = k
    · subst heq
      obtain ⟨q, hq, rfl⟩ := (hs.outbound a pre hset).events _ hev rfl
      obtain ⟨-, rfl⟩ := PaymentEvent.paymentSent.inj hq
      obtain ⟨info, hinfo, -, -⟩ := settledWith_eq_some.mp hset
      rw [if_pos rfl, hinfo]
      rfl
    · rw [if_neg heq]
      exact hset

/-- The events: each leaves the settled records of the others, and its own as they are. -/
theorem handleEvent_agreed {j : Nat} {ev : PaymentEvent} (hs : Agreed claim s)
    (hp : Promised claim s (.handle j)) (hb : SentOnce (handleEvent E s j ev))
    (hj : s.manager.events[j]? = some ev) :
    Agreed claim (handleEvent E s j ev) ∧ Keeps s (handleEvent E s j ev) := by
  have hev : ev ∈ s.manager.events := List.mem_of_getElem? hj
  have htake {ev' : PaymentEvent} (h : ev' ∈ (takeEvent s.manager j).events) :
      ev' ∈ s.manager.events := mem_of_take h
  cases ev with
  | paymentClaimed h purpose amt => exact claimed_agreed hs hb (hs.claims _ hev)
  | paymentSent paymentId p =>
      cases paymentId with
      | none =>
          exact agreed_of_same hs rfl hb (.refl _) (fun _ he => htake he) (fun _ => rfl)
            (fun _ => rfl)
      | some k => exact sent_agreed hs hp hb hj
  | paymentFailed k =>
      -- a settled payment has no such event, so its record is another one
      have hnone : settledWith s.outbound.mem k = none := by
        cases hk : settledWith s.outbound.mem k with
        | none => rfl
        | some pre =>
            obtain ⟨q, hq, -⟩ := (hs.outbound k pre hk).events _ hev rfl
            exact nomatch hq
      exact agreed_of_same hs rfl hb (.refl _) (fun _ he => htake he) (fun _ => rfl)
        (settledWith_spared (settledWith_setFailed s.outbound.mem k) hnone)

/-- One move of the node, arm by arm. -/
theorem move_agreed (hs : Agreed claim s) (hp : Promised claim s a)
    (hspare : SendsSpareSettled E s a) (hm : Move E s a t) (hb : SentOnce t) :
    Agreed claim t ∧ Keeps s t := by
  cases hm with
  | refused cmd => exact ⟨hs, Keeps.refl s⟩
  | @recorded cmd plan hrun hplan =>
      have hinfo := (planSend_pending hplan).1
      have hnone : settledWith s.outbound.mem plan.paymentId = none := by
        apply hspare
        simp only [actsOn, hplan]
        rfl
      exact agreed_of_same hs rfl hb (.refl _) (.refl _) (fun _ => rfl)
        (settledWith_spared (fun a => settledWith_recordPending _ _ a hinfo) hnone)
  | @invoiced amt created hrun =>
      cases created with
      | none => exact agreed_of_same hs rfl hb (.refl _) (.refl _) (fun _ => rfl) fun _ => rfl
      | some invoice =>
          have hfresh : settledWith s.inbound.mem invoice.paymentHash = none := by
            rw [settledWith, show s.inbound.mem[invoice.paymentHash]? = none from hp]
            rfl
          exact agreed_of_same hs rfl hb (.refl _) (.refl _)
            (settledWith_spared (fun a => settledWith_getInvoice _ a amt invoice) hfresh)
            fun _ => rfl
  | resumed | rejected | forgotten =>
      exact agreed_of_same hs rfl hb (.refl _) (.refl _) (fun _ => rfl) fun _ => rfl
  | @accepted k w plan hrun hk hnew =>
      have hnone : settledWith s.outbound.mem plan.paymentId = none := by
        apply hspare
        simp only [actsOn, hk]
        rfl
      refine ⟨⟨hs.running, hb, hs.claims, hs.inbound, ?_⟩, fun _ _ h => h, fun _ _ h => h⟩
      intro id pre hset
      refine closed_of_sub (hs.outbound id pre hset) ?_ (fun e he _ => he)
      intro hfly
      rcases List.mem_cons.mp hfly with rfl | hold
      · exact nomatch hnone.symm.trans hset
      · exact hold
  | @marked k plan hrun hk =>
      have hnone : settledWith s.outbound.mem plan.paymentId = none := by
        apply hspare
        simp only [actsOn, hk]
        rfl
      exact agreed_of_same hs rfl hb (.refl _) (.refl _) (fun _ => rfl)
        (settledWith_spared (settledWith_setFailed s.outbound.mem plan.paymentId) hnone)
  | settledInbound hset | settledOutbound hset =>
      obtain ⟨f, -, rfl⟩ := settleWrite_cases hset
      exact agreed_of_same hs rfl hb (.refl _) (.refl _) (fun _ => rfl) fun _ => rfl
  | @emitted ev hup hev =>
      refine ⟨⟨hs.running, hb, ?_, hs.inbound, ?_⟩, fun _ _ h => h, fun _ _ h => h⟩
      · intro e he
        rcases List.mem_append.mp he with hold | hnew
        · exact hs.claims e hold
        · obtain rfl := List.mem_singleton.mp hnew
          exact hp
      · intro id pre hset
        have hclosed := hs.outbound id pre hset
        refine closed_of_sub hclosed (fun h => (List.mem_filter.mp h).1) ?_
        intro e he hid
        rcases List.mem_append.mp he with hold | hnew
        · exact hold
        · -- no event ends a payment that is not in flight
          obtain rfl := List.mem_singleton.mp hnew
          exact absurd (hev id hid) hclosed.flight
  | handled hrun hj => exact handleEvent_agreed hs hp hb hj
  | crashed hup => exact hp.elim
  | booted hdown => exact nomatch hs.running.symm.trans hdown
  | started hstart hok => exact nomatch hs.running.symm.trans hstart
  | startFailed hstart hok => exact nomatch hs.running.symm.trans hstart

/-! ## The law of settled records -/

/-- The steps of a process that keeps what is settled. -/
def Sparing (E : NodeEnv β) (claim : PaymentHash → Option PaymentPreimage) (s : Node β)
    (a : NodeAction) : Prop :=
  Promised claim s a ∧ SendsSpareSettled E s a

instance sparingDecidable (s : Node β) (a : NodeAction) : Decidable (Sparing E claim s a) :=
  inferInstanceAs (Decidable (_ ∧ _))

theorem step_agreed (hs : Agreed claim s) (hg : Sparing E claim s a)
    (hst : step E s a = some t) : Agreed claim t ∧ Keeps s t := by
  have hm := step_move hst
  exact move_agreed hs hg.1 hg.2 hm (move_sentOnce hs.sentOnce hs.running hg.1 hm)

/-- **SETTLED IS FINAL**: as long as no send command acts on a payment whose record
    is settled, every record that is `Succeeded` at some point of the run is so,
    with the same preimage, at every later point. -/
theorem settled_records_final (claim : PaymentHash → Option PaymentPreimage)
    (s₀ s t : Node β) (h₀ : Agreed claim s₀) (hs : Reach (step E) (Sparing E claim) s₀ s)
    (ht : Reach (step E) (Sparing E claim) s t) : Keeps s t := by
  have hstep : ∀ u a v, Agreed claim u → Sparing E claim u a → step E u a = some v →
      Agreed claim v := fun _ _ _ hI hg hst => (step_agreed hI hg hst).1
  refine reach_relates (I := Agreed claim) Keeps.refl (fun _ _ _ => Keeps.trans) hstep
    (fun _ _ _ hI hg hst => (step_agreed hI hg hst).2) ht (reach_invariant hstep hs h₀)

/-! ## Paying an invoice again -/

/-- A process that has just started on empty files. -/
def idleNode (β : Type) : Node β :=
  ⟨.running, opened ∅ none, opened ∅ none, [], ⟨[], [], []⟩, []⟩

/-- A running node with empty stores. -/
theorem idleNode_agreed (claim : PaymentHash → Option PaymentPreimage) :
    Agreed claim (idleNode β) where
  running := rfl
  sentOnce := ⟨fun _ hid => (List.not_mem_nil hid).elim,
    fun _ hid => (List.not_mem_nil hid).elim, List.Pairwise.nil⟩
  claims := fun _ hev => nomatch hev
  inbound := fun _ _ hset => nomatch hset
  outbound := fun _ _ hset => nomatch hset

/-- `sendpayment` of an invoice up to the handled `PaymentSent`; `w` and `k` are
    the write call and the task of the command. -/
def payRun (b : UInt8) (w k : Nat) : List NodeAction :=
  [.send (.sendPayment (invoiceOf b) none), .settleOutbound w true, .resume k, .accept k,
    .emit (.paymentSent (some (Vector.replicate 32 b)) (Vector.replicate 32 b)), .handle 0]

/-- Two payments, one after the other. -/
theorem settled_records_final_payRun :
    ∃ s t : Node OutboundPaymentInfoStorage,
      Reach (step plainEnv) (Sparing plainEnv some) (idleNode _) s ∧
      Reach (step plainEnv) (Sparing plainEnv some) s t ∧
      settledWith s.outbound.mem (Vector.replicate 32 1)
        = some (some (Vector.replicate 32 1)) ∧
      settledWith t.outbound.mem (Vector.replicate 32 2)
        = some (some (Vector.replicate 32 2)) ∧ Keeps s t := by
  obtain ⟨s, t, hs, hsettled, ht, hsettled'⟩ := reach_reach_of_check
    (idleNode OutboundPaymentInfoStorage) (step plainEnv) (Sparing plainEnv some)
    (payRun 1 0 0) (payRun 2 2 2)
    (fun s => decide (settledWith s.outbound.mem (Vector.replicate 32 1)
      = some (some (Vector.replicate 32 1))))
    (fun t => decide (settledWith t.outbound.mem (Vector.replicate 32 2)
      = some (some (Vector.replicate 32 2))))
    (by decide +kernel)
  exact ⟨s, t, hs, ht, of_decide_eq_true hsettled, of_decide_eq_true hsettled',
    settled_records_final some _ s t (idleNode_agreed some) hs ht⟩

/-- **PAID TWICE**: a second `sendpayment` of an invoice that was paid puts a
    `Pending` record in the place of the settled one. -/
theorem paid_twice_unsettles :
    ¬ ∀ (claim : PaymentHash → Option PaymentPreimage)
      (s₀ s t : Node OutboundPaymentInfoStorage), Agreed claim s₀ →
      Reach (step plainEnv) (Promised claim) s₀ s →
      Reach (step plainEnv) (Promised claim) s t → Keeps s t := by
  intro hall
  obtain ⟨s, t, hs, hsettled, ht, hnone⟩ := reach_reach_of_check
    (idleNode OutboundPaymentInfoStorage) (step plainEnv) (Promised some)
    (payRun 1 0 0) [.send (.sendPayment (invoiceOf 1) none)]
    (fun s => decide (settledWith s.outbound.mem (Vector.replicate 32 1)
      = some (some (Vector.replicate 32 1))))
    (fun t => decide (settledWith t.outbound.mem (Vector.replicate 32 1) = none))
    (by decide +kernel)
  have hkeeps := hall some _ s t (idleNode_agreed some) hs ht
  have hstill := hkeeps.outbound _ _ (of_decide_eq_true hsettled)
  exact nomatch (of_decide_eq_true hnone).symm.trans hstill

end SettledRecord
