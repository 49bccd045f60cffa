import Scorer.PaymentSendProofs
import Scorer.PaymentWriteProofs

/-! # The node around the payment stores

    `Node` is the running node as far as payments go: both stores with their
    files, the tasks that are in the middle of a command or of an event, and the
    `ChannelManager` with the payments it remembers, those it still has in flight
    and the events it has emitted.  A command and a handler are cut at their
    awaits: a critical section is one move (`LockedStore.critical_reach`), the
    completion of a write is another, and the task finds it in a third.

    * `step` is the transition function: commands, the answers of the
      `ChannelManager`, events, write completions, crashes and restarts;
    * `Move` says once what each step can do (`step_move`), and every invariant of
      the node is proved from it. -/

namespace PaymentNode

open LabelledRun WriteOrder LockedStore PaymentStore PaymentSend PaymentWrite

/-- The events that change a payment store, with the fields their arms read. -/
inductive PaymentEvent where
  | paymentClaimed (paymentHash : PaymentHash) (purpose : PaymentPurpose)
      (amountMsat : UInt64)
  | paymentSent (paymentId : Option PaymentId) (paymentPreimage : PaymentPreimage)
  | paymentFailed (paymentId : PaymentId)
  deriving DecidableEq, Repr

/-- The payment that an event ends. -/
def terminalId : PaymentEvent → Option PaymentId
  | .paymentClaimed _ _ _ => none
  | .paymentSent paymentId _ => paymentId
  | .paymentFailed paymentId => some paymentId

/-- The store change of an event's arm; a `PaymentSent` without an id returns
    before it takes the lock. -/
def eventChange : PaymentEvent → Option (InboundChange ⊕ OutboundChange)
  | .paymentClaimed paymentHash purpose amountMsat =>
      some (.inl (.paymentClaimed paymentHash purpose amountMsat))
  | .paymentSent none _ => none
  | .paymentSent (some paymentId) paymentPreimage =>
      some (.inr (.paymentSent paymentId paymentPreimage))
  | .paymentFailed paymentId => some (.inr (.paymentFailed paymentId))

/-- The payments of the `ChannelManager`: `list_recent_payments`, those accepted
    whose terminal event has not been emitted, and the events emitted and not yet
    handed to a handler. -/
structure ChannelManager where
  recentPayments : List PaymentId
  inFlight       : List PaymentId
  events         : List PaymentEvent
  deriving DecidableEq, Repr

/-- A task between two of its awaits; `w` is the write call it has issued. -/
inductive Task where
  /-- a send command waits for the write of its record -/
  | recording (plan : SendPlan) (w : Nat)
  /-- the record is written, the call of the `ChannelManager` is next -/
  | calling (plan : SendPlan) (w : Nat)
  /-- the call was rejected, the error branch is about to take the lock -/
  | rejected (plan : SendPlan)
  | marking (w : Nat)
  | invoicing (w : Nat)
  | handlingInbound (ev : PaymentEvent) (w : Nat)
  | handlingOutbound (ev : PaymentEvent) (w : Nat)
  | finished
  deriving DecidableEq, Repr

/-- The payment id of a send command that is still in progress. -/
def sendingId : Task → Option PaymentId
  | .recording plan _ => some plan.paymentId
  | .calling plan _ => some plan.paymentId
  | .rejected plan => some plan.paymentId
  | _ => none

/-- The event of a handler that has not returned. -/
def unacknowledged : Task → Option PaymentEvent
  | .handlingInbound ev _ => some ev
  | .handlingOutbound ev _ => some ev
  | _ => none

/-- Off, reading its files, or running. -/
inductive NodePhase where
  | down
  | starting
  | running
  deriving DecidableEq, Repr

/-- `asked` are the ids this process has asked the `ChannelManager` to pay. -/
structure Node (β : Type) where
  phase    : NodePhase
  inbound  : Guarded InboundPaymentInfoStorage β TaskId
  outbound : Guarded OutboundPaymentInfoStorage β TaskId
  tasks    : List Task
  manager  : ChannelManager
  asked    : List PaymentId

/-- The encodings of the two files, and the hash of `keysend`. -/
structure NodeEnv (β : Type) where
  cIn    : Codec InboundPaymentInfoStorage β
  cOut   : Codec OutboundPaymentInfoStorage β
  sha256 : Bytes32 → Bytes32

/-- What may happen next: a command, a step of its task, an answer of the manager, a write
    that settles, an event that is emitted or handled, a payment that is forgotten, a crash,
    a start. -/
inductive NodeAction where
  | send (cmd : SendCommand)
  | getInvoice (amtMsat : UInt64) (created : Option CreatedInvoice)
  | resume (k : Nat)
  | accept (k : Nat)
  | reject (k : Nat)
  | markRejected (k : Nat)
  | settleInbound (i : Nat) (ok : Bool)
  | settleOutbound (i : Nat) (ok : Bool)
  | emit (ev : PaymentEvent)
  | handle (j : Nat)
  | forget (paymentId : PaymentId)
  | crash
  | boot (inboundReadable outboundReadable : Bool)
  | started
  deriving DecidableEq, Repr

variable {β : Type} (E : NodeEnv β)

/-- `read_inbound_payment_info` and `read_outbound_payment_info`: an empty map
    when the file is absent, cannot be opened or does not decode. -/
def readPaymentInfo {V : Type} (c : Codec (Std.ExtTreeMap Bytes32 V) β)
    (readable : Bool) (file : Option β) : Std.ExtTreeMap Bytes32 V :=
  if readable then (file.bind c.decode).getD ∅ else ∅

/-- A start begins with nothing or with what the file decodes to. -/
theorem readPaymentInfo_cases {V : Type} (c : Codec (Std.ExtTreeMap Bytes32 V) β)
    (readable : Bool) (file : Option β) :
    readPaymentInfo c readable file = ∅ ∨
      file.bind c.decode = some (readPaymentInfo c readable file) := by
  cases readable with
  | false => exact Or.inl rfl
  | true =>
      rw [readPaymentInfo, if_pos rfl]
      cases file.bind c.decode with
      | none => exact Or.inl rfl
      | some m => exact Or.inr rfl

/-- The first critical section of a send path. -/
def recordSend (s : Node β) (plan : SendPlan) : Node β :=
  { s with
    outbound := critical E.cOut
      (applyOutbound (.recordPending plan.paymentId plan.info)) s.outbound
    tasks := s.tasks ++ [.recording plan s.outbound.calls.length] }

/-- The critical section of `getinvoice`, also when no invoice was created. -/
def recordInvoice (s : Node β) (amtMsat : UInt64) (created : Option CreatedInvoice) :
    Node β :=
  { s with
    inbound := critical E.cIn (applyInbound (.getInvoice amtMsat created)) s.inbound
    tasks := s.tasks ++ [.invoicing s.inbound.calls.length] }

/-- Whether a write call has completed, and how. -/
def outcome (f : OrderedFile β) (w : Nat) : Option Bool :=
  match status f w with
  | some .succeeded => some true
  | some .failed => some false
  | _ => none

/-- What a task does once it finds its write completed. -/
def resumeTask (s : Node β) : Task → Option Task
  | .recording plan w =>
      (outcome s.outbound.file w).map fun ok =>
        if ok then .calling plan w else .finished
  | .marking w => (outcome s.outbound.file w).map fun _ => .finished
  | .handlingOutbound _ w => (outcome s.outbound.file w).map fun _ => .finished
  | .invoicing w => (outcome s.inbound.file w).map fun _ => .finished
  | .handlingInbound _ w => (outcome s.inbound.file w).map fun _ => .finished
  | _ => none

/-- The `ChannelManager` accepts the payment of task `k`. -/
def acceptPay (s : Node β) (k : Nat) (plan : SendPlan) : Node β :=
  { s with
    tasks := s.tasks.set k .finished
    manager := { s.manager with
      recentPayments := plan.paymentId :: s.manager.recentPayments
      inFlight := plan.paymentId :: s.manager.inFlight }
    asked := plan.paymentId :: s.asked }

/-- The `ChannelManager` rejects it. -/
def rejectPay (s : Node β) (k : Nat) (plan : SendPlan) : Node β :=
  { s with
    tasks := s.tasks.set k (if marksRejection plan.call then .rejected plan else .finished)
    asked := plan.paymentId :: s.asked }

/-- The error branch of `send_payment` and `keysend`. -/
def markFailed (s : Node β) (k : Nat) (plan : SendPlan) : Node β :=
  { s with
    outbound := critical E.cOut (applyOutbound (.sendRejected plan.paymentId)) s.outbound
    tasks := s.tasks.set k (.marking s.outbound.calls.length) }

/-- The `ChannelManager` emits an event; a terminal one ends its payment. -/
def emitEvent (m : ChannelManager) (ev : PaymentEvent) : ChannelManager :=
  { m with
    inFlight := m.inFlight.filter fun id => some id ≠ terminalId ev
    events := m.events ++ [ev] }

/-- An event that was handled is gone. -/
def takeEvent (m : ChannelManager) (j : Nat) : ChannelManager :=
  { m with events := m.events.eraseIdx j }

/-- A payment leaves `list_recent_payments`. -/
def forgetPayment (m : ChannelManager) (paymentId : PaymentId) : ChannelManager :=
  { m with recentPayments := m.recentPayments.filter fun id => id ≠ paymentId }

/-- The critical section of a handler, or its early return. -/
def handleEvent (s : Node β) (j : Nat) (ev : PaymentEvent) : Node β :=
  match eventChange ev with
  | none => { s with manager := takeEvent s.manager j }
  | some (.inl m) =>
      { s with
        inbound := critical E.cIn (applyInbound m) s.inbound
        tasks := s.tasks ++ [.handlingInbound ev s.inbound.calls.length]
        manager := takeEvent s.manager j }
  | some (.inr m) =>
      { s with
        outbound := critical E.cOut (applyOutbound m) s.outbound
        tasks := s.tasks ++ [.handlingOutbound ev s.outbound.calls.length]
        manager := takeEvent s.manager j }

/-- The process ends: memory and outstanding writes are gone, and the events
    whose handlers had not returned are delivered again. -/
def powerOff (s : Node β) : Node β :=
  { phase := .down
    inbound := opened ∅ (content s.inbound.file)
    outbound := opened ∅ (content s.outbound.file)
    tasks := []
    manager := { s.manager with
      events := s.tasks.filterMap unacknowledged ++ s.manager.events }
    asked := s.asked }

/-- The start-up code: read both stores, reconcile the outbound one with the
    recent payments and issue its write. -/
def startUp (s : Node β) (inboundReadable outboundReadable : Bool) : Node β :=
  { s with
    phase := .starting
    inbound := opened
      (readPaymentInfo E.cIn inboundReadable (content s.inbound.file))
      (content s.inbound.file)
    outbound := callWrite E.cOut (opened
      (reconcile s.manager.recentPayments
        (readPaymentInfo E.cOut outboundReadable (content s.outbound.file)))
      (content s.outbound.file))
    tasks := []
    asked := [] }

/-- A node that is off, with what it left on disk. -/
def offNode (inboundFile outboundFile : Option β) (manager : ChannelManager) : Node β :=
  ⟨.down, opened ∅ inboundFile, opened ∅ outboundFile, [], manager, []⟩

/-- A node that has never run. -/
abbrev newNode (β : Type) : Node β := offNode none none ⟨[], [], []⟩

/-- One move of the node. -/
def step (s : Node β) : NodeAction → Option (Node β)
  | .send cmd =>
      if s.phase = .running then
        match planSend E.sha256 cmd with
        | .error _ => some s
        | .ok plan => some (recordSend E s plan)
      else none
  | .getInvoice amtMsat created =>
      if s.phase = .running then some (recordInvoice E s amtMsat created) else none
  | .resume k =>
      if s.phase = .running then
        s.tasks[k]?.bind fun t =>
          (resumeTask s t).map fun t' => { s with tasks := s.tasks.set k t' }
      else none
  | .accept k =>
      if s.phase = .running then
        match s.tasks[k]? with
        | some (.calling plan _) =>
            -- an id that is still remembered is rejected
            if plan.paymentId ∈ s.manager.recentPayments then none
            else some (acceptPay s k plan)
        | _ => none
      else none
  | .reject k =>
      if s.phase = .running then
        match s.tasks[k]? with
        | some (.calling plan _) => some (rejectPay s k plan)
        | _ => none
      else none
  | .markRejected k =>
      if s.phase = .running then
        match s.tasks[k]? with
        | some (.rejected plan) => some (markFailed E s k plan)
        | _ => none
      else none
  | .settleInbound i ok =>
      (settleWrite s.inbound i ok).map fun g => { s with inbound := g }
  | .settleOutbound i ok =>
      (settleWrite s.outbound i ok).map fun g => { s with outbound := g }
  | .emit ev =>
      -- one terminal event for a payment that is in flight
      if s.phase ≠ .down ∧ ∀ id, terminalId ev = some id → id ∈ s.manager.inFlight then
        some { s with manager := emitEvent s.manager ev }
      else none
  | .handle j =>
      if s.phase = .running then
        s.manager.events[j]?.map fun ev => handleEvent E s j ev
      else none
  | .forget paymentId =>
      if s.phase ≠ .down ∧ paymentId ∉ s.manager.inFlight then
        some { s with manager := forgetPayment s.manager paymentId }
      else none
  | .crash => if s.phase = .down then none else some (powerOff s)
  | .boot inboundReadable outboundReadable =>
      if s.phase = .down then some (startUp E s inboundReadable outboundReadable)
      else none
  | .started =>
      if s.phase = .starting then
        (outcome s.outbound.file 0).map fun ok =>
          if ok then { s with phase := .running } else powerOff s
      else none

/-! ## The pieces of concrete runs -/

/-- Both files hold the stores themselves, and a preimage is its own hash. -/
def plainEnv : NodeEnv OutboundPaymentInfoStorage := ⟨Codec.plain _, Codec.plain _, id⟩

/-- A first start-up. -/
def firstBoot : List NodeAction := [.boot true true, .settleOutbound 0 true, .started]

/-- An invoice over 1000 msat, its hash 32 times the byte `b`. -/
def invoiceOf (b : UInt8) : Bolt11Invoice :=
  ⟨Vector.replicate 32 b, Vector.replicate 32 0, some 1000⟩

/-! ## What each step can do -/

/-- The moves of the node, one for each branch of `step`. -/
inductive Move (s : Node β) : NodeAction → Node β → Prop where
  | refused (cmd : SendCommand) : Move s (.send cmd) s
  | recorded {cmd : SendCommand} {plan : SendPlan} (hrun : s.phase = .running)
      (hplan : planSend E.sha256 cmd = .ok plan) :
      Move s (.send cmd) (recordSend E s plan)
  | invoiced {amtMsat : UInt64} {created : Option CreatedInvoice}
      (hrun : s.phase = .running) :
      Move s (.getInvoice amtMsat created) (recordInvoice E s amtMsat created)
  | resumed {k : Nat} {t t' : Task} (hrun : s.phase = .running)
      (hk : s.tasks[k]? = some t) (ht : resumeTask s t = some t') :
      Move s (.resume k) { s with tasks := s.tasks.set k t' }
  | accepted {k w : Nat} {plan : SendPlan} (hrun : s.phase = .running)
      (hk : s.tasks[k]? = some (.calling plan w))
      (hnew : plan.paymentId ∉ s.manager.recentPayments) :
      Move s (.accept k) (acceptPay s k plan)
  | rejected {k w : Nat} {plan : SendPlan} (hrun : s.phase = .running)
      (hk : s.tasks[k]? = some (.calling plan w)) :
      Move s (.reject k) (rejectPay s k plan)
  | marked {k : Nat} {plan : SendPlan} (hrun : s.phase = .running)
      (hk : s.tasks[k]? = some (.rejected plan)) :
      Move s (.markRejected k) (markFailed E s k plan)
  | settledInbound {i : Nat} {ok : Bool}
      {g : Guarded InboundPaymentInfoStorage β TaskId}
      (hg : settleWrite s.inbound i ok = some g) :
      Move s (.settleInbound i ok) { s with inbound := g }
  | settledOutbound {i : Nat} {ok : Bool}
      {g : Guarded OutboundPaymentInfoStorage β TaskId}
      (hg : settleWrite s.outbound i ok = some g) :
      Move s (.settleOutbound i ok) { s with outbound := g }
  | emitted {ev : PaymentEvent} (hup : s.phase ≠ .down)
      (hev : ∀ id, terminalId ev = some id → id ∈ s.manager.inFlight) :
      Move s (.emit ev) { s with manager := emitEvent s.manager ev }
  | handled {j : Nat} {ev : PaymentEvent} (hrun : s.phase = .running)
      (hj : s.manager.events[j]? = some ev) :
      Move s (.handle j) (handleEvent E s j ev)
  | forgotten {id : PaymentId} (hup : s.phase ≠ .down)
      (hdone : id ∉ s.manager.inFlight) :
      Move s (.forget id) { s with manager := forgetPayment s.manager id }
  | crashed (hup : s.phase ≠ .down) : Move s .crash (powerOff s)
  | booted {rIn rOut : Bool} (hdown : s.phase = .down) :
      Move s (.boot rIn rOut) (startUp E s rIn rOut)
  | started (hstart : s.phase = .starting)
      (hok : outcome s.outbound.file 0 = some true) :
      Move s .started { s with phase := .running }
  | startFailed (hstart : s.phase = .starting)
      (hok : outcome s.outbound.file 0 = some false) :
      Move s .started (powerOff s)

variable {E} {s t : Node β} {a : NodeAction}

/-- What a task that finds its write completed goes on to. -/
inductive Resumed (s : Node β) : Task → Task → Prop where
  | recorded {plan : SendPlan} {w : Nat} (hok : outcome s.outbound.file w = some true) :
      Resumed s (.recording plan w) (.calling plan w)
  | unrecorded {plan : SendPlan} {w : Nat} (hok : outcome s.outbound.file w = some false) :
      Resumed s (.recording plan w) .finished
  | ended {u : Task} (hu : sendingId u = none) : Resumed s u .finished

theorem resumeTask_resumed {u u' : Task} (h : resumeTask s u = some u') :
    Resumed s u u' := by
  cases u with
  | recording plan w =>
      obtain ⟨ok, hok, rfl⟩ := Option.map_eq_some_iff.mp h
      cases ok with
      | true => exact .recorded hok
      | false => exact .unrecorded hok
  | marking w =>
      obtain ⟨ok, -, rfl⟩ := Option.map_eq_some_iff.mp h
      exact .ended rfl
  | invoicing w =>
      obtain ⟨ok, -, rfl⟩ := Option.map_eq_some_iff.mp h
      exact .ended rfl
  | handlingInbound ev w =>
      obtain ⟨ok, -, rfl⟩ := Option.map_eq_some_iff.mp h
      exact .ended rfl
  | handlingOutbound ev w =>
      obtain ⟨ok, -, rfl⟩ := Option.map_eq_some_iff.mp h
      exact .ended rfl
  | calling plan w => cases h
  | rejected plan => cases h
  | finished => cases h

/-- The tasks after a task has started. -/
theorem task_of_push {L : List Task} {u x : Task} {P : Task → Prop} (h : u ∈ L ++ [x])
    (hx : P x) : u ∈ L ∨ P u := by
  rcases List.mem_append.mp h with hold | hnew
  · exact Or.inl hold
  · obtain rfl := List.mem_singleton.mp hnew
    exact Or.inr hx

/-- The tasks after a task has moved on. -/
theorem task_of_set {L : List Task} {k : Nat} {u x : Task} {P : Task → Prop}
    (h : u ∈ L.set k x) (hx : P x) : u ∈ L ∨ P u := by
  rcases List.mem_or_eq_of_mem_set h with hold | rfl
  · exact Or.inl hold
  · exact Or.inr hx

/-- **INVERSION**: every step is one of the moves. -/
theorem step_move (h : step E s a = some t) : Move E s a t := by
  cases a with
  | send cmd =>
      simp only [step, Option.ite_none_right_eq_some] at h
      obtain ⟨hrun, h⟩ := h
      split at h
      · obtain rfl := Option.some.inj h
        exact .refused cmd
      · rename_i plan hplan
        obtain rfl := Option.some.inj h
        exact .recorded hrun hplan
  | getInvoice amt created =>
      simp only [step, Option.ite_none_right_eq_some, Option.some.injEq] at h
      obtain ⟨hrun, rfl⟩ := h
      exact .invoiced hrun
  | resume k =>
      simp only [step, Option.ite_none_right_eq_some] at h
      obtain ⟨hrun, h⟩ := h
      obtain ⟨u, hu, h⟩ := Option.bind_eq_some_iff.mp h
      obtain ⟨u', hu', rfl⟩ := Option.map_eq_some_iff.mp h
      exact .resumed hrun hu hu'
  | accept k =>
      simp only [step, Option.ite_none_right_eq_some] at h
      obtain ⟨hrun, h⟩ := h
      split at h
      · rename_i plan w hk
        split at h
        · exact nomatch h
        · rename_i hnew
          obtain rfl := Option.some.inj h
          exact .accepted hrun hk hnew
      · exact nomatch h
  | reject k =>
      simp only [step, Option.ite_none_right_eq_some] at h
      obtain ⟨hrun, h⟩ := h
      split at h
      · rename_i plan w hk
        obtain rfl := Option.some.inj h
        exact .rejected hrun hk
      · exact nomatch h
  | markRejected k =>
      simp only [step, Option.ite_none_right_eq_some] at h
      obtain ⟨hrun, h⟩ := h
      split at h
      · rename_i plan hk
        obtain rfl := Option.some.inj h
        exact .marked hrun hk
      · exact nomatch h
  | settleInbound i ok =>
      obtain ⟨g, hg, rfl⟩ := Option.map_eq_some_iff.mp h
      exact .settledInbound hg
  | settleOutbound i ok =>
      obtain ⟨g, hg, rfl⟩ := Option.map_eq_some_iff.mp h
      exact .settledOutbound hg
  | emit ev =>
      simp only [step, Option.ite_none_right_eq_some, Option.some.injEq] at h
      obtain ⟨⟨hup, hev⟩, rfl⟩ := h
      exact .emitted hup hev
  | handle j =>
      simp only [step, Option.ite_none_right_eq_some] at h
      obtain ⟨hrun, h⟩ := h
      obtain ⟨ev, hev, rfl⟩ := Option.map_eq_some_iff.mp h
      exact .handled hrun hev
  | forget id =>
      simp only [step, Option.ite_none_right_eq_some, Option.some.injEq] at h
      obtain ⟨⟨hup, hdone⟩, rfl⟩ := h
      exact .forgotten hup hdone
  | crash =>
      simp only [step, Option.ite_none_left_eq_some, Option.some.injEq] at h
      obtain ⟨hup, rfl⟩ := h
      exact .crashed hup
  | boot rIn rOut =>
      simp only [step, Option.ite_none_right_eq_some, Option.some.injEq] at h
      obtain ⟨hdown, rfl⟩ := h
      exact .booted hdown
  | started =>
      simp only [step, Option.ite_none_right_eq_some] at h
      obtain ⟨hstart, h⟩ := h
      obtain ⟨ok, hok, rfl⟩ := Option.map_eq_some_iff.mp h
      cases ok with
      | true => exact .started hstart hok
      | false => exact .startFailed hstart hok

end PaymentNode
