import Scorer.LockedStoreProofs
import Scorer.PaymentStoreProofs

/-! # The payment files follow the payment stores

    Each place that changes a payment store does so under its lock, and encodes
    and issues the write before it releases the lock; only the start-up code
    changes the outbound store without one, and writes it before any task runs.
    `Process` is one process over both stores at the grain of single lock moves,
    with any number of tasks in any interleaving.

    `payment_files_follow_stores` is the law of the two files.  It leaves out one
    window: a task that has changed the store and has not yet issued its write
    (`unwritten_change_not_in_file`). -/

namespace PaymentWrite

open LabelledRun WriteOrder LockedStore PaymentStore

/-- A spawned task: an event handler or the command line. -/
abbrev TaskId := Nat

/-- The changes made under the inbound lock. -/
inductive InboundChange where
  | paymentClaimed (paymentHash : PaymentHash) (purpose : PaymentPurpose)
      (amountMsat : UInt64)
  | getInvoice (amtMsat : UInt64) (created : Option CreatedInvoice)
  deriving DecidableEq, Repr

/-- The changes made under the outbound lock once the tasks run. -/
inductive OutboundChange where
  | recordPending (paymentId : PaymentId) (info : PaymentInfo)
  | sendRejected (paymentId : PaymentId)
  | paymentSent (paymentId : PaymentId) (paymentPreimage : PaymentPreimage)
  | paymentFailed (paymentId : PaymentId)
  deriving DecidableEq, Repr

/-- The changes of the inbound store. -/
def applyInbound : InboundChange → InboundPaymentInfoStorage →
    InboundPaymentInfoStorage
  | .paymentClaimed paymentHash purpose amountMsat =>
      paymentClaimed paymentHash purpose amountMsat
  | .getInvoice amtMsat created => getInvoice amtMsat created

/-- The changes of the outbound store. -/
def applyOutbound : OutboundChange → OutboundPaymentInfoStorage →
    OutboundPaymentInfoStorage
  | .recordPending paymentId info => recordPending paymentId info
  | .sendRejected paymentId => sendRejected paymentId
  | .paymentSent paymentId paymentPreimage => paymentSent paymentId paymentPreimage
  | .paymentFailed paymentId => paymentFailed paymentId

theorem applyInbound_keysKept (m : InboundChange)
    (inbound : InboundPaymentInfoStorage) : KeysKept inbound (applyInbound m inbound) := by
  cases m with
  | paymentClaimed h purpose amt => exact paymentClaimed_keysKept h purpose amt inbound
  | getInvoice amt created => exact getInvoice_keysKept amt created inbound

theorem applyOutbound_keysKept (m : OutboundChange)
    (outbound : OutboundPaymentInfoStorage) : KeysKept outbound (applyOutbound m outbound) := by
  cases m with
  | recordPending id info => exact insert_keysKept _ _ _
  | sendRejected id => exact setFailed_keysKept id outbound
  | paymentSent id pre => exact map_keysKept _ _
  | paymentFailed id => exact setFailed_keysKept id outbound

/-! ## One process over both stores -/

/-- How far `start_ldk` is with the payment stores. -/
inductive StartPhase where
  | loaded
  | reconciled
  | writing
  | running
  | stopped
  deriving DecidableEq, Repr

/-- A process: how far its start is, and its two stores. -/
structure Process (β : Type) where
  phase    : StartPhase
  inbound  : Guarded InboundPaymentInfoStorage β TaskId
  outbound : Guarded OutboundPaymentInfoStorage β TaskId

/-- A step of the start, or an action on either store. -/
inductive ProcessAction where
  | reconcile (recentPayments : List PaymentId)
  | startWrite
  | startDone
  | inbound (a : LockAction TaskId InboundChange)
  | outbound (a : LockAction TaskId OutboundChange)

/-- A completion may arrive while the start-up code still waits for its write. -/
def isSettle {μ : Type} : LockAction TaskId μ → Bool
  | .settle _ _ => true
  | _ => false

variable {β : Type} (cIn : Codec InboundPaymentInfoStorage β)
  (cOut : Codec OutboundPaymentInfoStorage β)

/-- One move; commands and events wait for the end of the start. -/
def step (p : Process β) : ProcessAction → Option (Process β)
  | .reconcile recentPayments =>
      if p.phase = .loaded then
        some { p with phase := .reconciled,
                      outbound := { p.outbound with
                        mem := reconcile recentPayments p.outbound.mem } }
      else none
  | .startWrite =>
      -- the bytes are encoded under the lock and written after its release
      if p.phase = .reconciled then
        some { p with phase := .writing, outbound := callWrite cOut p.outbound }
      else none
  | .startDone =>
      if p.phase = .writing then
        match status p.outbound.file 0 with
        | some .succeeded => some { p with phase := .running }
        | some .failed => some { p with phase := .stopped }
        | _ => none
      else none
  | .inbound a =>
      if p.phase = .running then
        (LockedStore.step cIn applyInbound p.inbound a).map
          fun g => { p with inbound := g }
      else none
  | .outbound a =>
      if p.phase = .running ∨ (p.phase = .writing ∧ isSettle a = true) then
        (LockedStore.step cOut applyOutbound p.outbound a).map
          fun g => { p with outbound := g }
      else none

/-- The stores as read at start-up, over the files as the last process left
    them. -/
def start (inMem : InboundPaymentInfoStorage) (inBase : Option β)
    (outMem : OutboundPaymentInfoStorage) (outBase : Option β) : Process β :=
  ⟨.loaded, opened inMem inBase, opened outMem outBase⟩

/-- Both stores are coherent with their files; nothing is written before the
    start-up write. -/
structure ProcessCoherent (p : Process β) : Prop where
  inbound : Coherent cIn p.inbound
  outbound : Coherent cOut p.outbound
  unwritten : p.phase = .loaded → p.outbound.calls = []

variable {cIn cOut} {p q : Process β}

/-- A process that has just read its files. -/
theorem start_coherent (inMem : InboundPaymentInfoStorage) (inBase : Option β)
    (outMem : OutboundPaymentInfoStorage) (outBase : Option β) :
    ProcessCoherent cIn cOut (start inMem inBase outMem outBase) where
  inbound := opened_coherent _ _
  outbound := opened_coherent _ _
  unwritten := fun _ => rfl

/-- The start-up code changes the outbound store before its first call. -/
private theorem mem_change_coherent {g : Guarded OutboundPaymentInfoStorage β TaskId}
    (hg : Coherent cOut g) (hnil : g.calls = []) (mem : OutboundPaymentInfoStorage) :
    Coherent cOut { g with mem := mem } where
  ordered := hg.ordered
  encoded := hg.encoded
  newest := fun _ hne => absurd hnil hne

/-- One move keeps both files to their calls. -/
theorem step_coherent {a : ProcessAction} (hp : ProcessCoherent cIn cOut p)
    (hs : step cIn cOut p a = some q) : ProcessCoherent cIn cOut q := by
  cases a with
  | reconcile recent =>
      simp only [step, Option.ite_none_right_eq_some, Option.some.injEq] at hs
      obtain ⟨hphase, rfl⟩ := hs
      exact ⟨hp.inbound, mem_change_coherent hp.outbound (hp.unwritten hphase) _,
        fun h => nomatch h⟩
  | startWrite =>
      simp only [step, Option.ite_none_right_eq_some, Option.some.injEq] at hs
      obtain ⟨-, rfl⟩ := hs
      exact ⟨hp.inbound, callWrite_coherent hp.outbound, fun h => nomatch h⟩
  | startDone =>
      simp only [step, Option.ite_none_right_eq_some] at hs
      obtain ⟨-, hs⟩ := hs
      split at hs
      · obtain rfl := Option.some.inj hs
        exact ⟨hp.inbound, hp.outbound, fun h => nomatch h⟩
      · obtain rfl := Option.some.inj hs
        exact ⟨hp.inbound, hp.outbound, fun h => nomatch h⟩
      · exact nomatch hs
  | inbound a =>
      simp only [step, Option.ite_none_right_eq_some] at hs
      obtain ⟨hphase, hs⟩ := hs
      obtain ⟨g, hg, rfl⟩ := Option.map_eq_some_iff.mp hs
      exact ⟨LockedStore.step_coherent hp.inbound hg, hp.outbound, hp.unwritten⟩
  | outbound a =>
      simp only [step, Option.ite_none_right_eq_some] at hs
      obtain ⟨hphase, hs⟩ := hs
      obtain ⟨g, hg, rfl⟩ := Option.map_eq_some_iff.mp hs
      refine ⟨hp.inbound, LockedStore.step_coherent hp.outbound hg, ?_⟩
      intro hl
      rcases hphase with h1 | ⟨h1, -⟩ <;> exact nomatch h1.symm.trans hl

/-- Both stores only add calls, and both files only move forward. -/
def ProcessEarlier (p q : Process β) : Prop :=
  Earlier p.inbound q.inbound ∧ Earlier p.outbound q.outbound

theorem step_earlier {a : ProcessAction} (hs : step cIn cOut p a = some q) :
    ProcessEarlier p q := by
  cases a with
  | reconcile recent =>
      simp only [step, Option.ite_none_right_eq_some, Option.some.injEq] at hs
      obtain ⟨-, rfl⟩ := hs
      exact ⟨Earlier.refl _, List.prefix_rfl, Before.refl _⟩
  | startWrite =>
      simp only [step, Option.ite_none_right_eq_some, Option.some.injEq] at hs
      obtain ⟨-, rfl⟩ := hs
      exact ⟨Earlier.refl _, callWrite_earlier _⟩
  | startDone =>
      simp only [step, Option.ite_none_right_eq_some] at hs
      obtain ⟨-, hs⟩ := hs
      split at hs
      · obtain rfl := Option.some.inj hs
        exact ⟨Earlier.refl _, Earlier.refl _⟩
      · obtain rfl := Option.some.inj hs
        exact ⟨Earlier.refl _, Earlier.refl _⟩
      · exact nomatch hs
  | inbound a =>
      simp only [step, Option.ite_none_right_eq_some] at hs
      obtain ⟨-, hs⟩ := hs
      obtain ⟨g, hg, rfl⟩ := Option.map_eq_some_iff.mp hs
      exact ⟨LockedStore.step_earlier hg, Earlier.refl _⟩
  | outbound a =>
      simp only [step, Option.ite_none_right_eq_some] at hs
      obtain ⟨-, hs⟩ := hs
      obtain ⟨g, hg, rfl⟩ := Option.map_eq_some_iff.mp hs
      exact ⟨Earlier.refl _, LockedStore.step_earlier hg⟩

/-! ## The law of the two files -/

/-- The file of a store between an earlier state `g` and a later state `h`: its
    contents are a snapshot taken at one of the write calls, the call it holds has
    not moved back, and once the writes have settled it is the store itself. -/
structure FileFollows {σ : Type} (c : Codec σ β) (g h : Guarded σ β TaskId) : Prop where
  snapshot : (∃ i, status h.file i = some .succeeded) →
    ∃ k v, h.file.landed = some k ∧ h.calls[k]? = some v ∧
      content h.file = some (c.encode v)
  calls : g.calls <+: h.calls
  forward : ∀ k, g.file.landed = some k → ∃ l, h.file.landed = some l ∧ k ≤ l
  current : Quiet h.file → LastSucceeded h.file → ¬ Unwritten h →
    (content h.file).bind c.decode = some h.mem

/-- A coherent store follows what was in memory, in order. -/
theorem fileFollows_of_coherent {σ : Type} {c : Codec σ β} {g h : Guarded σ β TaskId}
    (hh : Coherent c h) (hgh : Earlier g h) : FileFollows c g h where
  snapshot := content_snapshot hh
  calls := hgh.calls
  forward := hgh.file.landed
  current := fun _ hlast hw => content_current hh hlast hw

theorem reach_coherent (h : Reach (step cIn cOut) anyStep p q)
    (hp : ProcessCoherent cIn cOut p) : ProcessCoherent cIn cOut q :=
  reach_invariant (fun _ _ _ hI _ hs => step_coherent hI hs) h hp

/-- Over any run, nothing is undone. -/
theorem reach_earlier (h : Reach (step cIn cOut) anyStep p q) : ProcessEarlier p q :=
  reach_relates (I := fun _ => True) (R := ProcessEarlier)
    (fun _ => ⟨Earlier.refl _, Earlier.refl _⟩)
    (fun _ _ _ h1 h2 => ⟨h1.1.trans h2.1, h1.2.trans h2.2⟩)
    (fun _ _ _ _ _ _ => trivial) (fun _ _ _ _ _ hs => step_earlier hs) h trivial

/-- **THE DISK FOLLOWS THE STORES**: whatever the tasks do and however their
    writes complete, each payment file holds a snapshot of its store taken at a
    write call, never goes back to an earlier one, and once the newest write has
    succeeded decodes to the store itself, unless a task is between its change
    and its write call. -/
theorem payment_files_follow_stores
    (inMem : InboundPaymentInfoStorage) (inBase : Option β)
    (outMem : OutboundPaymentInfoStorage) (outBase : Option β)
    (hp : Reach (step cIn cOut) anyStep (start inMem inBase outMem outBase) p)
    (hq : Reach (step cIn cOut) anyStep p q) :
    FileFollows cIn p.inbound q.inbound ∧ FileFollows cOut p.outbound q.outbound := by
  have hcoh : ProcessCoherent cIn cOut q :=
    reach_coherent (hp.trans hq) (start_coherent inMem inBase outMem outBase)
  obtain ⟨hin, hout⟩ := reach_earlier hq
  exact ⟨fileFollows_of_coherent hcoh.inbound hin,
    fileFollows_of_coherent hcoh.outbound hout⟩

/-- A start-up, then a command task that records a payment and releases the
    lock. -/
def recordingRun : List ProcessAction :=
  [.reconcile [], .startWrite, .outbound (.settle 0 true), .startDone,
    .outbound (.acquire 0),
    .outbound (.mutate 0 (.recordPending (Vector.replicate 32 7)
      ⟨none, none, .pending, ⟨some 1000⟩⟩)),
    .outbound (.write 0), .outbound (.release 0), .outbound (.settle 1 true)]

/-- A first start-up: both files absent, both stores empty. -/
def firstStart : Process OutboundPaymentInfoStorage := start ∅ none ∅ none

/-- A run that records twice. -/
theorem payment_files_follow_recordingRun :
    ∃ p q : Process OutboundPaymentInfoStorage,
      Reach (step (Codec.plain _) (Codec.plain _)) anyStep firstStart p ∧
      Reach (step (Codec.plain _) (Codec.plain _)) anyStep p q ∧
      p.phase = .running ∧ q.outbound.calls.length = 2 ∧
      FileFollows (Codec.plain _) p.inbound q.inbound ∧
      FileFollows (Codec.plain _) p.outbound q.outbound := by
  obtain ⟨p, hp, hcheck⟩ := reach_of_check firstStart
    (step (Codec.plain _) (Codec.plain _)) anyStep
    (recordingRun.take 4)
    (fun p => decide (p.phase = .running) &&
      (runIf (step (Codec.plain _) (Codec.plain _)) anyStep p (recordingRun.drop 4)).any
        fun q : Process OutboundPaymentInfoStorage => decide (q.outbound.calls.length = 2))
    (by decide +kernel)
  obtain ⟨hphase, hrest⟩ := Bool.and_eq_true _ _ |>.mp hcheck
  obtain ⟨q, hq, hlen⟩ := reach_of_check _ _ _ _ _ hrest
  exact ⟨p, q, hp, hq, of_decide_eq_true hphase, of_decide_eq_true hlen,
    payment_files_follow_stores ∅ none ∅ none hp hq⟩

/-- **THE WINDOW**: with no write outstanding and the newest one successful, the
    outbound file need not decode to the store: a task that has changed the store
    has not issued its write yet. -/
theorem unwritten_change_not_in_file :
    ¬ ∀ p : Process OutboundPaymentInfoStorage,
      Reach (step (Codec.plain _) (Codec.plain _)) anyStep firstStart p →
      Quiet p.outbound.file → LastSucceeded p.outbound.file →
      (content p.outbound.file).bind (Codec.plain _).decode = some p.outbound.mem := by
  intro hall
  obtain ⟨p, hp, hcheck⟩ := reach_of_check firstStart
    (step (Codec.plain _) (Codec.plain _)) anyStep
    (recordingRun.take 6)
    (fun p => decide (Quiet p.outbound.file) && decide (LastSucceeded p.outbound.file) &&
      decide ((content p.outbound.file).bind (Codec.plain _).decode ≠ some p.outbound.mem))
    (by decide +kernel)
  simp only [Bool.and_eq_true, decide_eq_true_eq] at hcheck
  obtain ⟨⟨hquiet, hlast⟩, hne⟩ := hcheck
  exact hne (hall p hp hquiet hlast)

end PaymentWrite
