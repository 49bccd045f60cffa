import Scorer.LabelledRunProofs
import Scorer.ProbeTrackerProofs

/-! # What a probe attempt reports

    The probing task makes one attempt after another; `run_probe_attempt` registers
    the hash of a probe that has been sent, waits for its outcome or for a timer,
    and marks the hash when the timer was first.  The event handler completes hashes
    at any moment after the send, under the same lock.

    * `step` interleaves the attempts, the handler and the clock, and keeps a log of
      what has happened;
    * `attempt_reports_outcome`: in every run each attempt returns the outcome that
      was handled for its own hash, if it was handled before the timer fired. -/

namespace ProbeAttempt

open LabelledRun Oneshot PaymentStore Tracker

/-- What an attempt comes to, for the loop and for the log. -/
inductive ProbeCompletion (ε : Type) where
  | success (paymentHash : PaymentHash)
  | failed (paymentHash : PaymentHash)
  | dropped (paymentHash : PaymentHash)
  | timeout (paymentHash : PaymentHash)
  | sendError (err : ε)
  deriving DecidableEq, Repr

/-- Where `run_probe_attempt` is: before the call, with `send_result` at hand, at the
    `await`, and between the timer and the second lock. -/
inductive Phase where
  | idle
  | sent (paymentHash : PaymentHash)
  | waiting (paymentHash : PaymentHash) (receiver : Nat) (deadline : Instant)
  | elapsed (paymentHash : PaymentHash)
  deriving DecidableEq, Repr

/-- What can be observed: a probe was sent, a completion of it was handled, its timer fired,
    the attempt returned. -/
inductive ProbeEvent (ε : Type) where
  | sent (paymentHash : PaymentHash)
  | handled (paymentHash : PaymentHash) (outcome : ProbeOutcome)
  | fired (paymentHash : PaymentHash)
  | returned (completion : ProbeCompletion ε)
  deriving DecidableEq, Repr

/-- The task, the tracker and its mutex, and the log, latest entry first. -/
structure Probing (ε : Type) where
  tracker  : ProbeTracker
  poisoned : Bool
  now      : Instant
  phase    : Phase
  log      : List (ProbeEvent ε)

/-- What may happen next: the next statement of the attempt, an event of LDK, or time. -/
inductive ProbeAction (ε : Type) where
  | send (sendResult : Except ε PaymentHash)
  | register (order : IterOrder)
  | poll (timerFired : Bool)
  | markTimedOut (order : IterOrder) (delay : Nat)
  | complete (order : IterOrder) (paymentHash : PaymentHash) (outcome : ProbeOutcome)
  | pass (duration : Nat)
  | poison

variable {ε : Type} (timeout : Nat)

/-- What the attempt returns for an outcome it received. -/
def received (paymentHash : PaymentHash) : ProbeOutcome → ProbeCompletion ε
  | .success => .success paymentHash
  | .failed => .failed paymentHash

/-- The `ProbeSuccessful` and `ProbeFailed` arms of `handle_ldk_events`. -/
def handleProbe (order : IterOrder) (now : Instant) (paymentHash : PaymentHash) :
    ProbeOutcome → ProbeTracker → ProbeTracker
  | .success => completeSuccess order now paymentHash
  | .failed => completeFailed order now paymentHash

/-- The attempt returns, and the loop is where it was. -/
def Probing.finish (s : Probing ε) (completion : ProbeCompletion ε) : Probing ε :=
  { s with phase := .idle, log := .returned completion :: s.log }

/-- One move: the attempt holds the tracker's lock in each of its own. -/
def step (s : Probing ε) : ProbeAction ε → Option (Probing ε)
  | .send sendResult =>
      match s.phase, sendResult with
      | .idle, .ok paymentHash =>
          some { s with phase := .sent paymentHash, log := .sent paymentHash :: s.log }
      | .idle, .error err => some (s.finish (.sendError err))
      | _, _ => none
  | .register order =>
      match s.phase with
      | .sent paymentHash =>
          if s.poisoned then some (s.finish (.dropped paymentHash))
          else
            let (tracker, receiver) := registerProbe order s.now paymentHash s.tracker
            some { s with tracker := tracker,
                          phase := .waiting paymentHash receiver (s.now + timeout) }
      | _ => none
  | .poll timerFired =>
      match s.phase with
      | .waiting paymentHash receiver deadline =>
          -- `timeout` polls the receiver before its timer
          match Oneshot.poll s.tracker.channels receiver with
          | .ready outcome => some (s.finish (received paymentHash outcome))
          | .closed => some (s.finish (.dropped paymentHash))
          | .pending =>
              if timerFired && deadline ≤ s.now then
                some { s with
                  tracker := { s.tracker with
                    channels := dropReceiver s.tracker.channels receiver },
                  phase := .elapsed paymentHash, log := .fired paymentHash :: s.log }
              else some s
      | _ => none
  | .markTimedOut order delay =>
      match s.phase with
      | .elapsed paymentHash =>
          let tracker :=
            if s.poisoned then s.tracker
            else markTimedOut order s.now paymentHash s.tracker (s.now + delay)
          some ({ s with tracker := tracker, now := s.now + delay }.finish
            (.timeout paymentHash))
      | _ => none
  | .complete order paymentHash outcome =>
      if s.poisoned then some s
      else
        some { s with tracker := handleProbe order s.now paymentHash outcome s.tracker,
                      log := .handled paymentHash outcome :: s.log }
  | .pass duration => some { s with now := s.now + duration }
  | .poison => some { s with poisoned := true }

/-- The probing task before its first attempt. -/
def newProbing (now : Instant) : Probing ε := ⟨newTracker, false, now, .idle, []⟩

/-- A completion of the hash has been handled. -/
def Handled (log : List (ProbeEvent ε)) (paymentHash : PaymentHash) : Prop :=
  ∃ outcome, .handled paymentHash outcome ∈ log

instance handledDecidable [DecidableEq ε] (log : List (ProbeEvent ε)) (h : PaymentHash) :
    Decidable (Handled log h) :=
  decidable_of_iff (.handled h .success ∈ log ∨ .handled h .failed ∈ log)
    ⟨fun hor => hor.elim (⟨_, ·⟩) (⟨_, ·⟩), fun ⟨o, ho⟩ => by
      cases o with
      | success => exact Or.inl ho
      | failed => exact Or.inr ho⟩

/-- Each hash is sent once, and completed at most once and after that; no thread
    panics with the lock held. -/
def Promised (s : Probing ε) : ProbeAction ε → Prop
  | .send (.ok paymentHash) => .sent paymentHash ∉ s.log
  | .complete _ paymentHash _ =>
      .sent paymentHash ∈ s.log ∧ ¬ Handled s.log paymentHash
  | .poison => False
  | _ => True

instance promisedDecidable [DecidableEq ε] (s : Probing ε) :
    (a : ProbeAction ε) → Decidable (Promised s a)
  | .send (.ok h) => inferInstanceAs (Decidable (.sent h ∉ s.log))
  | .complete _ h _ => inferInstanceAs (Decidable (.sent h ∈ s.log ∧ ¬ Handled s.log h))
  | .poison => inferInstanceAs (Decidable False)
  | .send (.error _) | .register _ | .poll _ | .markTimedOut _ _ | .pass _ =>
      inferInstanceAs (Decidable True)

/-! ## What the log says -/

/-- The probe that a completion is about. -/
def ProbeCompletion.hash? : ProbeCompletion ε → Option PaymentHash
  | .success h | .failed h | .dropped h | .timeout h => some h
  | .sendError _ => none

/-- The completion was handled when the timer of the hash had not fired. -/
def InTime (log : List (ProbeEvent ε)) (h : PaymentHash) (o : ProbeOutcome) : Prop :=
  ∃ later earlier, log = later ++ .handled h o :: earlier ∧ .fired h ∉ earlier

variable {log : List (ProbeEvent ε)} {e : ProbeEvent ε} {h : PaymentHash}
  {o o' : ProbeOutcome} {c : ProbeCompletion ε} {s t : Probing ε}

/-- A completion in time was handled. -/
theorem InTime.handled (hin : InTime log h o) : .handled h o ∈ log := by
  obtain ⟨later, earlier, rfl, -⟩ := hin
  exact List.mem_append_right later List.mem_cons_self

/-- An entry makes a completion count as in time only if it is that completion. -/
theorem inTime_of_cons (hin : InTime (e :: log) h o) :
    (e = .handled h o ∧ .fired h ∉ log) ∨ InTime log h o := by
  obtain ⟨later, earlier, heq, hfired⟩ := hin
  cases later with
  | nil =>
      obtain ⟨rfl, rfl⟩ := List.cons.inj heq
      exact Or.inl ⟨rfl, hfired⟩
  | cons e' later =>
      obtain ⟨rfl, rfl⟩ := List.cons.inj heq
      exact Or.inr ⟨later, earlier, rfl, hfired⟩

/-- A report that the log bears out. -/
def Truthful (log : List (ProbeEvent ε)) : ProbeCompletion ε → Prop
  | .success h => .handled h .success ∈ log
  | .failed h => .handled h .failed ∈ log
  | .dropped _ => False
  | .timeout h => .fired h ∈ log ∧ ∀ o, ¬ InTime log h o
  | .sendError _ => True

/-- What fired stays too late. -/
theorem late_cons (hfired : .fired h ∈ log) (hlate : ∀ o, ¬ InTime log h o)
    (e : ProbeEvent ε) : ∀ o, ¬ InTime (e :: log) h o := by
  intro o hin
  rcases inTime_of_cons hin with ⟨-, hnot⟩ | hold
  · exact hnot hfired
  · exact hlate o hold

/-- What is reported stays true of a longer log. -/
theorem Truthful.cons (ht : Truthful log c) (e : ProbeEvent ε) : Truthful (e :: log) c := by
  cases c with
  | success h => exact List.mem_cons_of_mem e ht
  | failed h => exact List.mem_cons_of_mem e ht
  | dropped h => exact ht
  | timeout h => exact ⟨List.mem_cons_of_mem e ht.1, late_cons ht.1 ht.2 e⟩
  | sendError err => exact trivial

/-- A completion that was received was handled. -/
theorem truthful_received (hh : .handled h o ∈ log) :
    Truthful log (received h o : ProbeCompletion ε) := by
  cases o with
  | success => exact hh
  | failed => exact hh

/-- The laws of the log: one completion for each hash, nothing before the send, and
    no report that it does not bear out. -/
structure History (log : List (ProbeEvent ε)) : Prop where
  once : ∀ h o o', .handled h o ∈ log → .handled h o' ∈ log → o = o'
  sentFirst : ∀ h, Handled log h ∨ .fired h ∈ log → .sent h ∈ log
  truthful : ∀ c, .returned c ∈ log → Truthful log c

/-- The entries that keep the laws. -/
def Admissible (log : List (ProbeEvent ε)) : ProbeEvent ε → Prop
  | .sent _ => True
  | .handled h _ => .sent h ∈ log ∧ ¬ Handled log h
  | .fired h => .sent h ∈ log
  | .returned c => Truthful log c

/-- An admissible event keeps the history as LDK promises it. -/
theorem History.cons (hl : History log) (ha : Admissible log e) : History (e :: log) where
  once := by
    intro h o o' ho ho'
    rcases List.mem_cons.mp ho with rfl | hold
    · rcases List.mem_cons.mp ho' with heq | hold'
      · exact (ProbeEvent.handled.inj heq).2.symm
      · exact absurd ⟨o', hold'⟩ ha.2
    · rcases List.mem_cons.mp ho' with rfl | hold'
      · exact absurd ⟨o, hold⟩ ha.2
      · exact hl.once h o o' hold hold'
  sentFirst := by
    intro h hor
    have hnew : Handled log h ∨ .fired h ∈ log → .sent h ∈ e :: log :=
      fun hold => List.mem_cons_of_mem e (hl.sentFirst h hold)
    rcases hor with ⟨o, ho⟩ | hf
    · rcases List.mem_cons.mp ho with rfl | hold
      · exact List.mem_cons_of_mem _ ha.1
      · exact hnew (Or.inl ⟨o, hold⟩)
    · rcases List.mem_cons.mp hf with rfl | hold
      · exact List.mem_cons_of_mem _ ha
      · exact hnew (Or.inr hold)
  truthful := by
    intro c hc
    rcases List.mem_cons.mp hc with rfl | hold
    · exact Truthful.cons ha _
    · exact (hl.truthful c hold).cons e

/-! ## What each step can do -/

/-- The moves of the task while the lock is not poisoned, one for each branch of
    `step`. -/
inductive Move (s : Probing ε) : ProbeAction ε → Probing ε → Prop where
  | sent {h : PaymentHash} (hp : s.phase = .idle) :
      Move s (.send (.ok h)) { s with phase := .sent h, log := .sent h :: s.log }
  | unsent {err : ε} (hp : s.phase = .idle) :
      Move s (.send (.error err)) (s.finish (.sendError err))
  | registered {order : IterOrder} {h : PaymentHash} (hp : s.phase = .sent h) :
      Move s (.register order) { s with
        tracker := (registerProbe order s.now h s.tracker).1,
        phase := .waiting h (registerProbe order s.now h s.tracker).2 (s.now + timeout) }
  | arrived {timerFired : Bool} {h : PaymentHash} {receiver deadline : Nat}
      {o : ProbeOutcome} (hp : s.phase = .waiting h receiver deadline)
      (hpoll : Oneshot.poll s.tracker.channels receiver = .ready o) :
      Move s (.poll timerFired) (s.finish (received h o))
  | closed {timerFired : Bool} {h : PaymentHash} {receiver deadline : Nat}
      (hp : s.phase = .waiting h receiver deadline)
      (hpoll : Oneshot.poll s.tracker.channels receiver = .closed) :
      Move s (.poll timerFired) (s.finish (.dropped h))
  | fired {timerFired : Bool} {h : PaymentHash} {receiver deadline : Nat}
      (hp : s.phase = .waiting h receiver deadline)
      (hpoll : Oneshot.poll s.tracker.channels receiver = .pending)
      (htimer : timerFired = true ∧ deadline ≤ s.now) :
      Move s (.poll timerFired) { s with
        tracker := { s.tracker with channels := dropReceiver s.tracker.channels receiver },
        phase := .elapsed h, log := .fired h :: s.log }
  | waits {timerFired : Bool} {h : PaymentHash} {receiver deadline : Nat}
      (hp : s.phase = .waiting h receiver deadline)
      (hpoll : Oneshot.poll s.tracker.channels receiver = .pending)
      (htimer : ¬ (timerFired = true ∧ deadline ≤ s.now)) : Move s (.poll timerFired) s
  | marked {order : IterOrder} {delay : Nat} {h : PaymentHash}
      (hp : s.phase = .elapsed h) :
      Move s (.markTimedOut order delay)
        ({ s with tracker := markTimedOut order s.now h s.tracker (s.now + delay),
                  now := s.now + delay }.finish (.timeout h))
  | completed {order : IterOrder} {h : PaymentHash} {o : ProbeOutcome} :
      Move s (.complete order h o) { s with
        tracker := handleProbe order s.now h o s.tracker, log := .handled h o :: s.log }
  | passed {duration : Nat} : Move s (.pass duration) { s with now := s.now + duration }
  | poisoned : Move s .poison { s with poisoned := true }

/-- **INVERSION**: every step is one of the moves. -/
theorem step_move {a : ProbeAction ε} (hunpoisoned : s.poisoned = false)
    (h : step timeout s a = some t) : Move timeout s a t := by
  have hun : ¬ s.poisoned = true := by
    rw [hunpoisoned]
    exact Bool.false_ne_true
  cases a with
  | send sendResult =>
      simp only [step] at h
      split at h
      · rename_i hp
        obtain rfl := Option.some.inj h
        exact .sent hp
      · rename_i err hp
        obtain rfl := Option.some.inj h
        exact .unsent hp
      · cases h
  | register order =>
      simp only [step, if_neg hun] at h
      split at h
      · rename_i hp
        obtain rfl := Option.some.inj h
        exact .registered hp
      · cases h
  | poll timerFired =>
      simp only [step] at h
      split at h
      · rename_i hp
        split at h
        · rename_i hpoll
          obtain rfl := Option.some.inj h
          exact .arrived hp hpoll
        · rename_i hpoll
          obtain rfl := Option.some.inj h
          exact .closed hp hpoll
        · rename_i hpoll
          simp only [Bool.and_eq_true, decide_eq_true_eq] at h
          split at h
          · rename_i htimer
            obtain rfl := Option.some.inj h
            exact .fired hp hpoll htimer
          · rename_i htimer
            obtain rfl := Option.some.inj h
            exact .waits hp hpoll htimer
      · cases h
  | markTimedOut order delay =>
      simp only [step, if_neg hun] at h
      split at h
      · rename_i hp
        obtain rfl := Option.some.inj h
        exact .marked hp
      · cases h
  | complete order h' o =>
      simp only [step, if_neg hun] at h
      obtain rfl := Option.some.inj h
      exact .completed
  | pass duration =>
      obtain rfl := Option.some.inj h
      exact .passed
  | poison =>
      obtain rfl := Option.some.inj h
      exact .poisoned

/-! ## The invariant -/

/-- The hash of the attempt that is going on. -/
def Phase.hash? : Phase → Option PaymentHash
  | .idle => none
  | .sent h | .waiting h _ _ | .elapsed h => some h

/-- The hash that the attempt has registered. -/
def Phase.registered? : Phase → Option PaymentHash
  | .idle | .sent _ => none
  | .waiting h _ _ | .elapsed h => some h

/-- Where the outcome of the current hash is, if it has come. -/
def InPhase (log : List (ProbeEvent ε)) (tracker : ProbeTracker) : Phase → Prop
  | .idle => True
  | .sent h =>
      .sent h ∈ log ∧ .fired h ∉ log ∧
        ∀ o, .handled h o ∈ log → tracker.completedProbes[h]? = some o
  | .waiting h receiver _ =>
      .sent h ∈ log ∧ .fired h ∉ log ∧ tracker.completedProbes[h]? = none ∧
        ((Oneshot.poll tracker.channels receiver = .pending ∧ ¬ Handled log h ∧
            tracker.pendingProbes[h]? = some receiver) ∨
          ∃ o, Oneshot.poll tracker.channels receiver = .ready o ∧ .handled h o ∈ log ∧
            tracker.pendingProbes[h]? = none)
  | .elapsed h => .fired h ∈ log ∧ ∀ o, ¬ InTime log h o

/-- Each hash that was sent has its attempt, before or after its report. -/
def Accounted (log : List (ProbeEvent ε)) (phase : Phase) : Prop :=
  ∀ h, .sent h ∈ log →
    phase.hash? = some h ∨ ∃ c, .returned c ∈ log ∧ c.hash? = some h

/-- What holds in every state: the tracker's three maps say where each probe is, and each
    agrees with the log and with the phase of the attempt. -/
structure Attended (s : Probing ε) : Prop where
  unpoisoned : s.poisoned = false
  history : History s.log
  markers : ∀ h ∈ s.tracker.timedOutProbes, .fired h ∈ s.log
  buffered : ∀ (h : PaymentHash) (o : ProbeOutcome),
    s.tracker.completedProbes[h]? = some o → .handled h o ∈ s.log
  pending : ∀ (h : PaymentHash) (sender : Nat), s.tracker.pendingProbes[h]? = some sender →
    s.phase.registered? = some h
  accounted : Accounted s.log s.phase
  attempt : InPhase s.log s.tracker s.phase

theorem newProbing_attended (now : Instant) : Attended (newProbing now : Probing ε) where
  unpoisoned := rfl
  history := ⟨fun _ _ _ h => (nomatch h), fun _ h => h.elim (fun ⟨_, h⟩ => nomatch h)
    (fun h => nomatch h), fun _ h => nomatch h⟩
  markers := fun _ h => absurd h Std.ExtTreeMap.not_mem_empty
  buffered := fun _ _ h => nomatch Std.ExtTreeMap.getElem?_empty.symm.trans h
  pending := fun _ _ h => nomatch Std.ExtTreeMap.getElem?_empty.symm.trans h
  accounted := fun _ h => nomatch h
  attempt := trivial

/-- An event that is not a new probe keeps the sent ones accounted for. -/
theorem Accounted.cons {phase : Phase} (ha : Accounted log phase)
    (he : ∀ h, e = .sent h → phase.hash? = some h) : Accounted (e :: log) phase := by
  intro h hsent
  rcases List.mem_cons.mp hsent with heq | hold
  · exact Or.inl (he h heq.symm)
  · exact (ha h hold).imp id fun ⟨c, hc, hh⟩ => ⟨c, List.mem_cons_of_mem e hc, hh⟩

/-- The report accounts for the hash of its attempt. -/
theorem Accounted.finish {phase : Phase} (ha : Accounted log phase)
    (hc : ∀ h, phase.hash? = some h → c.hash? = some h) :
    Accounted (.returned c :: log) .idle := by
  intro h hsent
  have hold := (List.mem_cons.mp hsent).resolve_left (fun h => nomatch h)
  rcases ha h hold with hcur | ⟨c', hc', hh⟩
  · exact Or.inr ⟨c, List.mem_cons_self, hc h hcur⟩
  · exact Or.inr ⟨c', List.mem_cons_of_mem _ hc', hh⟩

/-- An attempt that ends with nothing of its hash in the tracker. -/
private theorem attended_finish (tracker : ProbeTracker) (now : Instant)
    (hs : Attended s) (ht : Truthful s.log c)
    (hc : ∀ h, s.phase.hash? = some h → c.hash? = some h)
    (hmarkers : ∀ h ∈ tracker.timedOutProbes, .fired h ∈ s.log)
    (hbuffered : ∀ (h : PaymentHash) (o : ProbeOutcome),
      tracker.completedProbes[h]? = some o → .handled h o ∈ s.log)
    (hpending : ∀ h : PaymentHash, tracker.pendingProbes[h]? = none) :
    Attended ({ s with tracker := tracker, now := now }.finish c) where
  unpoisoned := hs.unpoisoned
  history := hs.history.cons ht
  markers := fun h hm => List.mem_cons_of_mem _ (hmarkers h hm)
  buffered := fun h o hb => List.mem_cons_of_mem _ (hbuffered h o hb)
  pending := fun h _ hp => nomatch (hpending h).symm.trans hp
  accounted := hs.accounted.finish hc
  attempt := trivial

/-- Outside an `await` nothing is pending. -/
private theorem pending_none (hs : Attended s) (hr : s.phase.registered? = none)
    (h : PaymentHash) : s.tracker.pendingProbes[h]? = none := by
  cases hp : s.tracker.pendingProbes[h]? with
  | none => rfl
  | some sender => exact nomatch hr.symm.trans (hs.pending h sender hp)

private theorem attended_send (hs : Attended s) (hp : s.phase = .idle)
    (hfresh : .sent h ∉ s.log) :
    Attended { s with phase := .sent h, log := .sent h :: s.log } where
  unpoisoned := hs.unpoisoned
  history := hs.history.cons trivial
  markers := fun h' hm => List.mem_cons_of_mem _ (hs.markers h' hm)
  buffered := fun h' o hb => List.mem_cons_of_mem _ (hs.buffered h' o hb)
  pending := fun h' sender hpend => by
    rw [pending_none hs (by rw [hp]; rfl) h'] at hpend
    exact nomatch hpend
  accounted := by
    intro h' hsent
    rcases List.mem_cons.mp hsent with heq | hold
    · exact Or.inl (congrArg some (ProbeEvent.sent.inj heq).symm)
    · rcases hs.accounted h' hold with hcur | ⟨c, hc, hh⟩
      · rw [hp] at hcur
        exact nomatch hcur
      · exact Or.inr ⟨c, List.mem_cons_of_mem _ hc, hh⟩
  attempt := by
    refine ⟨List.mem_cons_self, fun hf => ?_, fun o ho => ?_⟩
    · have hold := (List.mem_cons.mp hf).resolve_left (fun h => nomatch h)
      exact hfresh (hs.history.sentFirst h (Or.inr hold))
    · have hold := (List.mem_cons.mp ho).resolve_left (fun h => nomatch h)
      exact absurd (hs.history.sentFirst h (Or.inl ⟨o, hold⟩)) hfresh

private theorem attended_register (hs : Attended s) (hp : s.phase = .sent h)
    (order : IterOrder) (deadline : Instant) :
    Attended { s with
      tracker := (registerProbe order s.now h s.tracker).1,
      phase := .waiting h (registerProbe order s.now h s.tracker).2 deadline } := by
  have hatt := hs.attempt
  rw [hp] at hatt
  obtain ⟨hsent, hfired, hbuf⟩ := hatt
  have hpend := pending_none hs (by rw [hp]; rfl)
  have hacc : Accounted s.log (.waiting h (registerProbe order s.now h s.tracker).2 deadline) := by
    have hold := hs.accounted
    rw [hp] at hold
    exact hold
  have hmarkers : ∀ h' ∈ (pruneTimedOutProbes order s.now s.tracker.timedOutProbes).erase h,
      .fired h' ∈ s.log := fun h' hm =>
    hs.markers h' (mem_of_mem_prune order s.now (Std.ExtTreeMap.mem_of_mem_erase hm))
  rcases registerProbe_cases order s.now h s.tracker with
    ⟨o, ho, heq, hpoll⟩ | ⟨hnone, heq, hpoll⟩
  · -- the outcome was there first
    rw [heq]
    refine ⟨hs.unpoisoned, hs.history, hmarkers, fun h' o' hb => ?_,
      fun h' sender hp' => (nomatch (hpend h').symm.trans hp'), hacc, hsent, hfired, ?_,
      Or.inr ⟨o, hpoll, hs.buffered h o ho, hpend h⟩⟩
    · rw [erase_get] at hb
      split at hb
      · exact nomatch hb
      · exact hs.buffered h' o' hb
    · rw [erase_get, if_pos rfl]
  · -- nothing was there, so the attempt waits and its sender is the pending one
    rw [heq]
    refine ⟨hs.unpoisoned, hs.history, hmarkers, hs.buffered, fun h' sender hp' => ?_, hacc,
      hsent, hfired, hnone, Or.inl ⟨hpoll, fun ⟨o, ho⟩ => ?_, ?_⟩⟩
    · rw [insert_get] at hp'
      split at hp'
      · rename_i heq'
        exact congrArg some heq'.symm
      · exact nomatch (hpend h').symm.trans hp'
    · exact nomatch hnone.symm.trans (hbuf o ho)
    · rw [insert_get, if_pos rfl]

/-- A completion that finds its attempt neither before its registration nor at the
    `await` changes nothing for the current attempt. -/
private theorem inPhase_other {tracker tracker' : ProbeTracker} {phase : Phase}
    (hp : InPhase log tracker phase)
    (hne : ∀ h', phase.hash? = some h' → .fired h' ∈ log ∨ h' ≠ h)
    (hchannels : tracker'.channels = tracker.channels)
    (hpending : tracker'.pendingProbes = tracker.pendingProbes)
    (hcompleted : ∀ h' : PaymentHash, h' ≠ h →
      tracker'.completedProbes[h']? = tracker.completedProbes[h']?) :
    InPhase (.handled h o :: log) tracker' phase := by
  -- the new entry of the log says nothing about the other hashes
  have hold : ∀ {h' : PaymentHash} {o' : ProbeOutcome}, h' ≠ h →
      .handled h' o' ∈ (.handled h o :: log : List (ProbeEvent ε)) → .handled h' o' ∈ log :=
    fun hn ho => (List.mem_cons.mp ho).resolve_left
      fun heq => hn (ProbeEvent.handled.inj heq).1
  have hunfired : ∀ {h' : PaymentHash}, .fired h' ∉ log →
      .fired h' ∉ (.handled h o :: log : List (ProbeEvent ε)) :=
    fun hn hf => hn ((List.mem_cons.mp hf).resolve_left fun h => nomatch h)
  cases phase with
  | idle => trivial
  | sent h' =>
      obtain ⟨hsent, hfired, hbuf⟩ := hp
      have hn := (hne h' rfl).resolve_left hfired
      refine ⟨List.mem_cons_of_mem _ hsent, hunfired hfired, fun o' ho => ?_⟩
      rw [hcompleted h' hn]
      exact hbuf o' (hold hn ho)
  | waiting h' receiver deadline =>
      obtain ⟨hsent, hfired, hnone, hor⟩ := hp
      have hn := (hne h' rfl).resolve_left hfired
      refine ⟨List.mem_cons_of_mem _ hsent, hunfired hfired,
        (hcompleted h' hn).trans hnone, ?_⟩
      rw [hchannels, hpending]
      rcases hor with ⟨hpoll, hnot, hpend⟩ | ⟨o', hpoll, ho, hpend⟩
      · exact Or.inl ⟨hpoll, fun ⟨o', ho⟩ => hnot ⟨o', hold hn ho⟩, hpend⟩
      · exact Or.inr ⟨o', hpoll, List.mem_cons_of_mem _ ho, hpend⟩
  | elapsed h' => exact ⟨List.mem_cons_of_mem _ hp.1, late_cons hp.1 hp.2 _⟩

/-- An event of LDK is a completion, whether it succeeded or failed. -/
theorem handleProbe_eq (order : IterOrder) (now : Instant) (tracker : ProbeTracker) :
    handleProbe order now h o tracker = completeProbe order now h o tracker := by
  cases o with
  | success => rfl
  | failed => rfl

/-- What the receiver of an attempt sees while it waits. -/
theorem awaiting {receiver deadline : Nat} (hs : Attended s)
    (hp : s.phase = .waiting h receiver deadline) :
    .sent h ∈ s.log ∧ s.tracker.completedProbes[h]? = none ∧
      ((Oneshot.poll s.tracker.channels receiver = .pending ∧ ¬ Handled s.log h ∧
          s.tracker.pendingProbes[h]? = some receiver) ∨
        ∃ o, Oneshot.poll s.tracker.channels receiver = .ready o ∧ .handled h o ∈ s.log ∧
          s.tracker.pendingProbes[h]? = none) := by
  have hatt := hs.attempt
  rw [hp] at hatt
  exact ⟨hatt.1, hatt.2.2⟩

/-- Its sender is never dropped. -/
theorem not_closed {receiver deadline : Nat} (hs : Attended s)
    (hp : s.phase = .waiting h receiver deadline) :
    Oneshot.poll s.tracker.channels receiver ≠ .closed := by
  intro hclosed
  obtain ⟨-, -, ⟨hpoll, -, -⟩ | ⟨o, hpoll, -, -⟩⟩ := awaiting hs hp
  · cases hclosed.symm.trans hpoll
  · cases hclosed.symm.trans hpoll

/-- The outcome has come, and nothing of its hash is left to deliver. -/
theorem arrived_handled {receiver deadline : Nat} (hs : Attended s)
    (hp : s.phase = .waiting h receiver deadline)
    (hpoll : Oneshot.poll s.tracker.channels receiver = .ready o) :
    .handled h o ∈ s.log ∧ s.tracker.pendingProbes[h]? = none := by
  obtain ⟨-, -, ⟨hpend, -, -⟩ | ⟨o', hpoll', ho, hnone⟩⟩ := awaiting hs hp
  · cases hpoll.symm.trans hpend
  · obtain rfl := Oneshot.Poll.ready.inj (hpoll.symm.trans hpoll')
    exact ⟨ho, hnone⟩

/-- Nothing has come, and the completion is still to be handled. -/
theorem pending_unhandled {receiver deadline : Nat} (hs : Attended s)
    (hp : s.phase = .waiting h receiver deadline)
    (hpoll : Oneshot.poll s.tracker.channels receiver = .pending) :
    ¬ Handled s.log h ∧ s.tracker.pendingProbes[h]? = some receiver := by
  obtain ⟨-, -, ⟨-, hnot, hpend⟩ | ⟨o, hready, -, -⟩⟩ := awaiting hs hp
  · exact ⟨hnot, hpend⟩
  · cases hpoll.symm.trans hready

/-- The hash that a sender waits for is that of the current attempt. -/
theorem registered_phase {sender : Nat} (hs : Attended s)
    (hsender : s.tracker.pendingProbes[h]? = some sender) :
    (∃ deadline, s.phase = .waiting h sender deadline) ∨ s.phase = .elapsed h := by
  have hreg := hs.pending h sender hsender
  cases hphase : s.phase with
  | idle => rw [hphase] at hreg; cases hreg
  | sent h' => rw [hphase] at hreg; cases hreg
  | waiting h' receiver deadline =>
      rw [hphase] at hreg
      obtain rfl := Option.some.inj hreg
      obtain ⟨-, -, ⟨-, -, hpend⟩ | ⟨o, -, -, hnone⟩⟩ := awaiting hs hphase
      · obtain rfl := Option.some.inj (hsender.symm.trans hpend)
        exact Or.inl ⟨deadline, rfl⟩
      · cases hsender.symm.trans hnone
  | elapsed h' =>
      rw [hphase] at hreg
      obtain rfl := Option.some.inj hreg
      exact Or.inr rfl

/-- An attempt with no sender and no completion is to register its hash, or has timed
    out. -/
theorem unclaimed_phase (hs : Attended s) (hnot : ¬ Handled s.log h)
    (hsender : s.tracker.pendingProbes[h]? = none) (hcur : s.phase.hash? = some h) :
    s.phase = .sent h ∨ s.phase = .elapsed h := by
  cases hphase : s.phase with
  | idle => rw [hphase] at hcur; cases hcur
  | sent h' =>
      rw [hphase] at hcur
      exact Or.inl (congrArg Phase.sent (Option.some.inj hcur))
  | waiting h' receiver deadline =>
      rw [hphase] at hcur
      obtain rfl := Option.some.inj hcur
      obtain ⟨-, -, ⟨-, -, hpend⟩ | ⟨o, -, ho, -⟩⟩ := awaiting hs hphase
      · cases hsender.symm.trans hpend
      · exact absurd ⟨o, ho⟩ hnot
  | elapsed h' =>
      rw [hphase] at hcur
      exact Or.inr (congrArg Phase.elapsed (Option.some.inj hcur))

/-- The step that the handler takes, in the three cases of `complete_probe`. -/
private theorem attended_complete (hs : Attended s) (hsent : .sent h ∈ s.log)
    (hnot : ¬ Handled s.log h) (order : IterOrder) :
    Attended { s with tracker := handleProbe order s.now h o s.tracker,
                      log := .handled h o :: s.log } := by
  have hhist := hs.history.cons (e := .handled h o) ⟨hsent, hnot⟩
  have hacc : Accounted (.handled h o :: s.log) s.phase :=
    hs.accounted.cons fun _ h => nomatch h
  have hbuf : ∀ (h' : PaymentHash) (o' : ProbeOutcome),
      s.tracker.completedProbes[h']? = some o' →
      .handled h' o' ∈ (.handled h o :: s.log : List (ProbeEvent ε)) :=
    fun h' o' hb => List.mem_cons_of_mem _ (hs.buffered h' o' hb)
  have hmark : ∀ h' ∈ pruneTimedOutProbes order s.now s.tracker.timedOutProbes,
      .fired h' ∈ (.handled h o :: s.log : List (ProbeEvent ε)) :=
    fun h' hm => List.mem_cons_of_mem _ (hs.markers h' (mem_of_mem_prune order s.now hm))
  rw [handleProbe_eq]
  rcases completeProbe_cases order s.now h o s.tracker with
    ⟨hmarked, heq⟩ | ⟨-, sender, hsender, heq⟩ | ⟨-, hsender, heq⟩
  · -- the hash timed out before
    have hfired := hs.markers h (mem_of_mem_prune order s.now hmarked)
    rw [heq]
    refine ⟨hs.unpoisoned, hhist, fun h' hm => hmark h' (Std.ExtTreeMap.mem_of_mem_erase hm),
      hbuf, hs.pending, hacc, inPhase_other hs.attempt (fun h' _ => ?_) rfl rfl
        fun _ _ => rfl⟩
    by_cases hn : h' = h
    · exact Or.inl (hn ▸ hfired)
    · exact Or.inr hn
  · -- the attempt has registered; it is the current one
    rw [heq]
    refine ⟨hs.unpoisoned, hhist, hmark, hbuf, fun h' sender' hp => ?_, hacc, ?_⟩
    · rw [erase_get] at hp
      split at hp
      · exact nomatch hp
      · exact hs.pending h' sender' hp
    · have hatt := hs.attempt
      rcases registered_phase hs hsender with ⟨deadline, hphase⟩ | hphase
      · rw [hphase] at hatt ⊢
        obtain ⟨hs', hfired, hnone, ⟨hpoll, -, -⟩ | ⟨o', -, -, hpend⟩⟩ := hatt
        · refine ⟨List.mem_cons_of_mem _ hs', fun hf => hfired
            ((List.mem_cons.mp hf).resolve_left fun h => nomatch h), hnone,
            Or.inr ⟨o, poll_send hpoll, List.mem_cons_self, ?_⟩⟩
          rw [erase_get, if_pos rfl]
        · exact nomatch hsender.symm.trans hpend
      · rw [hphase] at hatt ⊢
        exact ⟨List.mem_cons_of_mem _ hatt.1, late_cons hatt.1 hatt.2 _⟩
  · -- the outcome is buffered
    rw [heq]
    refine ⟨hs.unpoisoned, hhist, hmark, fun h' o' hb => ?_, hs.pending, hacc, ?_⟩
    · rw [insert_get] at hb
      split at hb
      · rename_i heq'
        obtain rfl := Option.some.inj hb
        rw [heq']
        exact List.mem_cons_self
      · exact hbuf h' o' hb
    · have hother : ∀ h' : PaymentHash, h' ≠ h →
          (s.tracker.completedProbes.insert h o)[h']? = s.tracker.completedProbes[h']? :=
        fun h' hn => by rw [insert_get, if_neg hn]
      have hatt := hs.attempt
      -- only an attempt that has not registered can still find the outcome there
      by_cases hcur : s.phase = .sent h
      · rw [hcur] at hatt ⊢
        obtain ⟨hs', hfired, -⟩ := hatt
        refine ⟨List.mem_cons_of_mem _ hs', fun hf => hfired
          ((List.mem_cons.mp hf).resolve_left fun h => nomatch h), fun o' ho => ?_⟩
        obtain rfl := hhist.once h o o' List.mem_cons_self ho
        rw [insert_get, if_pos rfl]
      · refine inPhase_other hatt (fun h' hh => ?_) rfl rfl hother
        by_cases hn : h' = h
        · subst hn
          rw [(unclaimed_phase hs hnot hsender hh).resolve_left hcur] at hatt
          exact Or.inl hatt.1
        · exact Or.inr hn

/-- The attempt gives up after the timer, and marks the probe. -/
private theorem attended_markTimedOut (hs : Attended s) (hp : s.phase = .elapsed h)
    (order : IterOrder) (now' : Instant) :
    Attended ({ s with tracker := markTimedOut order s.now h s.tracker now',
                       now := now' }.finish (.timeout h)) := by
  have hatt := hs.attempt
  rw [hp] at hatt
  refine attended_finish _ _ hs hatt (fun h' hh => ?_) (fun h' hm => ?_) (fun h' o hb => ?_)
    fun h' => ?_
  · rw [hp] at hh
    exact hh
  · rcases Std.ExtTreeMap.mem_insert.mp hm with hself | hold
    · rw [← Std.LawfulEqCmp.eq_of_compare hself]
      exact hatt.1
    · exact hs.markers h' (mem_of_mem_prune order s.now hold)
  · simp only [markTimedOut, prune, erase_get] at hb
    split at hb
    · cases hb
    · exact hs.buffered h' o hb
  · simp only [markTimedOut, prune, erase_get]
    split
    · rfl
    · rename_i hn
      cases hpend : s.tracker.pendingProbes[h']? with
      | none => rfl
      | some sender =>
          -- only the current attempt has a sender, and that one is dropped
          have hreg := hs.pending h' sender hpend
          rw [hp] at hreg
          exact absurd (Option.some.inj hreg).symm hn

/-- The timer fires with nothing received. -/
private theorem attended_fire {receiver deadline : Nat} (hs : Attended s)
    (hp : s.phase = .waiting h receiver deadline) (hsent : .sent h ∈ s.log)
    (hnot : ¬ Handled s.log h) :
    Attended { s with
      tracker := { s.tracker with channels := dropReceiver s.tracker.channels receiver },
      phase := .elapsed h, log := .fired h :: s.log } where
  unpoisoned := hs.unpoisoned
  history := hs.history.cons hsent
  markers := fun h' hm => List.mem_cons_of_mem _ (hs.markers h' hm)
  buffered := fun h' o hb => List.mem_cons_of_mem _ (hs.buffered h' o hb)
  pending := fun h' sender hpend => by
    have hreg := hs.pending h' sender hpend
    rw [hp] at hreg
    exact hreg
  accounted := by
    have hold : Accounted s.log (.elapsed h) := by
      have hacc := hs.accounted
      rw [hp] at hacc
      exact hacc
    exact hold.cons fun _ h => nomatch h
  attempt := by
    refine ⟨List.mem_cons_self, fun o hin => ?_⟩
    exact hnot ⟨o, (List.mem_cons.mp hin.handled).resolve_left fun h => nomatch h⟩

/-- The channel had the outcome, and the attempt reports it. -/
private theorem attended_arrived {receiver deadline : Nat} (hs : Attended s)
    (hp : s.phase = .waiting h receiver deadline)
    (hpoll : Oneshot.poll s.tracker.channels receiver = .ready o) :
    Attended (s.finish (received h o)) := by
  obtain ⟨ho, hpend⟩ := arrived_handled hs hp hpoll
  refine attended_finish s.tracker s.now hs (truthful_received ho)
    (fun h' hh => ?_) hs.markers hs.buffered fun h' => ?_
  · rw [hp] at hh
    obtain rfl := Option.some.inj hh
    cases o <;> rfl
  · cases hpend' : s.tracker.pendingProbes[h']? with
    | none => rfl
    | some sender =>
        have hreg := hs.pending h' sender hpend'
        rw [hp] at hreg
        obtain rfl := Option.some.inj hreg
        cases hpend.symm.trans hpend'

/-- One move, arm by arm. -/
theorem step_attended {a : ProbeAction ε} (hs : Attended s) (hg : Promised s a)
    (hstep : step timeout s a = some t) : Attended t := by
  cases step_move timeout hs.unpoisoned hstep with
  | sent hp => exact attended_send hs hp hg
  | unsent hp =>
      refine attended_finish s.tracker s.now hs trivial
        (fun h' hh => ?_) hs.markers hs.buffered (pending_none hs (by rw [hp]; rfl))
      rw [hp] at hh
      cases hh
  | registered hp => exact attended_register hs hp _ _
  | arrived hp hpoll => exact attended_arrived hs hp hpoll
  | closed hp hpoll => exact absurd hpoll (not_closed hs hp)
  | fired hp hpoll htimer =>
      exact attended_fire hs hp (awaiting hs hp).1 (pending_unhandled hs hp hpoll).1
  | waits hp hpoll htimer => exact hs
  | marked hp => exact attended_markTimedOut hs hp _ _
  | completed => exact attended_complete hs hg.1 hg.2 _
  | passed =>
      exact ⟨hs.unpoisoned, hs.history, hs.markers, hs.buffered, hs.pending, hs.accounted,
        hs.attempt⟩
  | poisoned => exact hg.elim

theorem reach_attended {now : Instant}
    (hr : Reach (step timeout) Promised (newProbing now : Probing ε) s) : Attended s :=
  reach_invariant (fun _ _ _ hs hg h => step_attended timeout hs hg h) hr
    (newProbing_attended now)

/-! ## The reports -/

/-- The attempt has returned `c`, or its own next steps return it: a poll, after the
    registration if that is still to come, whatever the timer does. -/
def Returns (s : Probing ε) (c : ProbeCompletion ε) : Prop :=
  .returned c ∈ s.log ∨
  (∀ timerFired, ∃ t, step timeout s (.poll timerFired) = some t ∧ .returned c ∈ t.log) ∨
  ∀ order timerFired, ∃ t u, step timeout s (.register order) = some t ∧
    step timeout t (.poll timerFired) = some u ∧ .returned c ∈ u.log

/-- A truthful report of a hash that was completed in time is of its outcome. -/
theorem report_eq (hl : History log) (hin : InTime log h o) (hc : .returned c ∈ log)
    (hh : c.hash? = some h) : c = received h o := by
  have htrue := hl.truthful c hc
  cases c with
  | sendError err => exact nomatch hh
  | dropped h' => exact htrue.elim
  | timeout h' =>
      obtain rfl := Option.some.inj hh
      exact absurd hin (htrue.2 o)
  | success h' =>
      obtain rfl := Option.some.inj hh
      obtain rfl := hl.once h' o .success hin.handled htrue
      rfl
  | failed h' =>
      obtain rfl := Option.some.inj hh
      obtain rfl := hl.once h' o .failed hin.handled htrue
      rfl

/-- An attempt whose hash was completed in time is on its way to that outcome. -/
theorem attended_returns (hs : Attended s) (hin : InTime s.log h o) :
    Returns timeout s (received h o) := by
  have hsent := hs.history.sentFirst h (Or.inl ⟨o, hin.handled⟩)
  rcases hs.accounted h hsent with hcur | ⟨c, hc, hh⟩
  · have hatt := hs.attempt
    cases hp : s.phase with
    | idle => rw [hp] at hcur; exact nomatch hcur
    | sent h' =>
        rw [hp] at hcur hatt
        obtain rfl := Option.some.inj hcur
        -- it has not registered yet, so it finds the outcome when it does
        have hbuf := hatt.2.2 o hin.handled
        refine Or.inr (Or.inr fun order timerFired => ?_)
        have hun : ¬ s.poisoned = true := by
          rw [hs.unpoisoned]
          exact Bool.false_ne_true
        rcases registerProbe_cases order s.now h' s.tracker with
          ⟨o', ho', -, hpoll⟩ | ⟨hnone, -, -⟩
        · -- the outcome waits in the buffer for the first poll
          obtain rfl := Option.some.inj (hbuf.symm.trans ho')
          let waiting : Probing ε := { s with
            tracker := (registerProbe order s.now h' s.tracker).1,
            phase := .waiting h' (registerProbe order s.now h' s.tracker).2
              (s.now + timeout) }
          refine ⟨waiting, waiting.finish (received h' o), ?_, ?_, List.mem_cons_self⟩
          · simp only [step, hp, if_neg hun]
            rfl
          · simp only [step, waiting, hpoll]
        · exact nomatch hnone.symm.trans hbuf
    | waiting h' receiver deadline =>
        rw [hp] at hcur hatt
        obtain rfl := Option.some.inj hcur
        obtain ⟨-, -, -, ⟨-, hnot, -⟩ | ⟨o', hpoll, ho', -⟩⟩ := hatt
        · exact absurd ⟨o, hin.handled⟩ hnot
        · -- the receiver is polled before the timer
          obtain rfl := hs.history.once h' o o' hin.handled ho'
          refine Or.inr (Or.inl fun timerFired => ⟨s.finish (received h' o), ?_,
            List.mem_cons_self⟩)
          simp only [step, hp, hpoll]
    | elapsed h' =>
        rw [hp] at hcur hatt
        obtain rfl := Option.some.inj hcur
        exact absurd hin (hatt.2 o)
  · rw [← report_eq hs.history hin hc hh]
    exact Or.inl hc

/-- The step that returns leaves nothing of its hash to deliver. -/
theorem step_returned {a : ProbeAction ε} (hs : Attended s)
    (hstep : step timeout s a = some t) (hlog : t.log = .returned c :: s.log)
    (hh : c.hash? = some h) :
    h ∉ t.tracker.pendingProbes ∧ h ∉ t.tracker.completedProbes := by
  cases step_move timeout hs.unpoisoned hstep with
  | sent hp => cases (List.cons.inj hlog).1
  | unsent hp =>
      obtain rfl := ProbeEvent.returned.inj (List.cons.inj hlog).1
      cases hh
  | registered hp => exact absurd hlog.symm (List.cons_ne_self _ _)
  | @arrived timerFired h' receiver deadline o hp hpoll =>
      obtain rfl := ProbeEvent.returned.inj (List.cons.inj hlog).1
      have heq : h' = h := by
        cases o <;> exact Option.some.inj hh
      subst heq
      -- an attempt that has received was delivered to: its sender is used up
      exact ⟨not_mem_of_get (arrived_handled hs hp hpoll).2,
        not_mem_of_get (awaiting hs hp).2.1⟩
  | closed hp hpoll => exact absurd hpoll (not_closed hs hp)
  | fired hp hpoll htimer => cases (List.cons.inj hlog).1
  | waits hp hpoll htimer => exact absurd hlog.symm (List.cons_ne_self _ _)
  | marked hp =>
      obtain rfl := ProbeEvent.returned.inj (List.cons.inj hlog).1
      obtain rfl := Option.some.inj hh
      constructor
      · exact not_mem_of_get ((erase_get _ _ _).trans (if_pos rfl))
      · exact not_mem_of_get ((erase_get _ _ _).trans (if_pos rfl))
  | completed => cases (List.cons.inj hlog).1
  | passed => exact absurd hlog.symm (List.cons_ne_self _ _)
  | poisoned => exact absurd hlog.symm (List.cons_ne_self _ _)

/-- **EACH ATTEMPT REPORTS ITS OWN OUTCOME**: in every run, an attempt returns success
    or failure only if the handler said so of its hash, returns what was handled
    before its timer fired, is never dropped, and leaves nothing to deliver when it
    returns. -/
theorem attempt_reports_outcome {now : Instant}
    (hr : Reach (step timeout) Promised (newProbing now : Probing ε) s) (h : PaymentHash) :
    (.returned (.success h) ∈ s.log → .handled h .success ∈ s.log) ∧
    (.returned (.failed h) ∈ s.log → .handled h .failed ∈ s.log) ∧
    (∀ o, InTime s.log h o →
      (∀ c, .returned c ∈ s.log → c.hash? = some h → c = received h o) ∧
        Returns timeout s (received h o)) ∧
    .returned (.dropped h) ∉ s.log ∧
    ∀ a t c, step timeout s a = some t → t.log = .returned c :: s.log →
      c.hash? = some h → h ∉ t.tracker.pendingProbes ∧ h ∉ t.tracker.completedProbes := by
  have hs := reach_attended timeout hr
  refine ⟨hs.history.truthful (.success h), hs.history.truthful (.failed h), fun o hin => ?_,
    hs.history.truthful (.dropped h), fun a t c hstep hlog hh => ?_⟩
  · exact ⟨fun c hc hh => report_eq hs.history hin hc hh, attended_returns timeout hs hin⟩
  · exact step_returned timeout hs hstep hlog hh

/-- A hash for a run. -/
private def hashOf (n : UInt8) : PaymentHash := Vector.replicate 32 n

/-- One outcome comes before its attempt registers, the next one between the timer
    and `mark_timed_out`. -/
theorem attempt_reports_outcome_race :
    ∃ s : Probing Unit, Reach (step 60) Promised (newProbing 0) s ∧
      .returned (.timeout (hashOf 2)) ∈ s.log ∧ .returned (.dropped (hashOf 2)) ∉ s.log ∧
      ∀ c, .returned c ∈ s.log → c.hash? = some (hashOf 1) →
        c = received (hashOf 1) .success := by
  obtain ⟨s, hs, hcheck⟩ := reach_of_check (newProbing 0 : Probing Unit) (step 60) Promised
    [.send (.ok (hashOf 1)), .complete keyOrder (hashOf 1) .success,
      .register keyOrder, .poll false, .send (.ok (hashOf 2)), .register keyOrder,
      .poll false, .pass 60, .poll true, .complete keyOrder (hashOf 2) .failed,
      .markTimedOut keyOrder 1]
    (fun s => decide (s.log = [.returned (.timeout (hashOf 2)),
      .handled (hashOf 2) .failed, .fired (hashOf 2), .sent (hashOf 2),
      .returned (.success (hashOf 1)), .handled (hashOf 1) .success, .sent (hashOf 1)]))
    (by decide +kernel)
  have hlog := of_decide_eq_true hcheck
  obtain ⟨-, -, hearly, -⟩ := attempt_reports_outcome 60 hs (hashOf 1)
  obtain ⟨-, -, -, hdropped, -⟩ := attempt_reports_outcome 60 hs (hashOf 2)
  refine ⟨s, hs, by rw [hlog]; exact List.mem_cons_self, hdropped, (hearly .success ?_).1⟩
  exact ⟨[.returned (.timeout (hashOf 2)), .handled (hashOf 2) .failed, .fired (hashOf 2),
    .sent (hashOf 2), .returned (.success (hashOf 1))], [.sent (hashOf 1)], hlog,
    fun h => nomatch (List.mem_singleton.mp h)⟩

end ProbeAttempt
