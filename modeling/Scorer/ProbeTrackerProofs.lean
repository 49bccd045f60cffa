import Mathlib
import Scorer.OneshotProofs
import Scorer.PaymentStoreProofs

/-! # The probe tracker

    The tracker of `tracker.rs` brings the outcome of a probe from the event handler
    to the attempt that waits for it.  A hash is pending while an attempt waits,
    completed when the outcome came before the attempt registered, and timed out
    when the attempt stopped waiting; a marker of the last kind goes after fifteen
    minutes, or when there are more than 4096.

    The tracker holds the sending ends of channels, kept here with the table of the
    channels themselves.  Each operation starts with `pruneTimedOutProbes`, whose
    pass over a hash map has an order of its own; `completeProbe_cases` says what
    the operation with the most branches can do. -/

namespace Tracker

open Std Oneshot PaymentStore

/-- A reading of the monotonic clock, in nanoseconds. -/
abbrev Instant := Nat

/-- `TIMED_OUT_PROBE_TTL`, in nanoseconds. -/
def timedOutProbeTtl : Nat := 15 * 60 * 1000000000

/-- `MAX_TIMED_OUT_PROBES`. -/
def maxTimedOutProbes : Nat := 4096

/-- What a completion event says. -/
inductive ProbeOutcome where
  | success
  | failed
  deriving DecidableEq, Repr

/-- When each probe was given up. -/
abbrev TimedOutProbes := ExtTreeMap PaymentHash Instant

/-- The order in which a pass over the hash map finds its entries. -/
structure IterOrder where
  iter : TimedOutProbes → List (PaymentHash × Instant)
  perm : ∀ m, (iter m).Perm m.toList

/-- The order of the keys. -/
def keyOrder : IterOrder := ⟨fun m => m.toList, fun _ => List.Perm.refl _⟩

/-- The tracker, and the channels whose senders it keeps in `pending_probes`. -/
structure ProbeTracker where
  pendingProbes   : ExtTreeMap PaymentHash Nat
  completedProbes : ExtTreeMap PaymentHash ProbeOutcome
  timedOutProbes  : TimedOutProbes
  channels        : Channels ProbeOutcome

/-- `ProbeTracker::new`. -/
def newTracker : ProbeTracker := ⟨∅, ∅, ∅, []⟩

/-! ## Markers -/

section Markers

variable (order : IterOrder) (now : Instant) (timedOut : TimedOutProbes)

/-- The markers that have not expired. -/
def retained : TimedOutProbes :=
  timedOut.filter fun _ timedOutAt => now - timedOutAt ≤ timedOutProbeTtl

/-- The markers in excess of the cap: the oldest of `m`. -/
def excess (m : TimedOutProbes) : List (PaymentHash × Instant) :=
  ((order.iter m).mergeSort fun a b => a.2 ≤ b.2).take (m.size - maxTimedOutProbes)

/-- Remove the listed entries. -/
def removeAll (entries : List (PaymentHash × Instant)) (m : TimedOutProbes) :
    TimedOutProbes :=
  entries.foldl (fun m entry => m.erase entry.1) m

/-- `prune_timed_out_probes`, on its map. -/
def pruneTimedOutProbes : TimedOutProbes :=
  let kept := retained now timedOut
  if kept.size ≤ maxTimedOutProbes then kept else removeAll (excess order kept) kept

end Markers

/-! ## The operations -/

variable (order : IterOrder) (now : Instant) (paymentHash : PaymentHash)
  (outcome : ProbeOutcome) (tracker : ProbeTracker)

/-- The pruning, as a step of the methods below. -/
def prune : ProbeTracker :=
  { tracker with timedOutProbes := pruneTimedOutProbes order now tracker.timedOutProbes }

/-- What becomes of the channel of a sender that leaves `pending_probes` unused. -/
def dropPending (tracker : ProbeTracker) : Channels ProbeOutcome :=
  match tracker.pendingProbes[paymentHash]? with
  | some sender => dropSender tracker.channels sender
  | none => tracker.channels

/-- `register_probe`; the receiver is the position of its channel. -/
def registerProbe : ProbeTracker × Nat :=
  let tracker := prune order now tracker
  let timedOut := tracker.timedOutProbes.erase paymentHash
  match tracker.completedProbes[paymentHash]? with
  | some outcome =>
      let (rx, channels) := channel tracker.channels
      ({ tracker with timedOutProbes := timedOut,
                      completedProbes := tracker.completedProbes.erase paymentHash,
                      channels := send channels rx outcome }, rx)
  | none =>
      -- `insert` drops the sender it replaces; the new channel is another one
      let (rx, channels) := channel (dropPending paymentHash tracker)
      ({ tracker with timedOutProbes := timedOut,
                      pendingProbes := tracker.pendingProbes.insert paymentHash rx,
                      channels := channels }, rx)

/-- `mark_timed_out`; the clock is read once for pruning and once more for the
    marker. -/
def markTimedOut (later : Instant) : ProbeTracker :=
  let tracker := prune order now tracker
  { pendingProbes := tracker.pendingProbes.erase paymentHash,
    completedProbes := tracker.completedProbes.erase paymentHash,
    timedOutProbes := tracker.timedOutProbes.insert paymentHash later,
    channels := dropPending paymentHash tracker }

/-- `complete_probe`. -/
def completeProbe : ProbeTracker :=
  let tracker := prune order now tracker
  if paymentHash ∈ tracker.timedOutProbes then
    { tracker with timedOutProbes := tracker.timedOutProbes.erase paymentHash }
  else
    match tracker.pendingProbes[paymentHash]? with
    | some sender =>
        { tracker with pendingProbes := tracker.pendingProbes.erase paymentHash,
                       channels := send tracker.channels sender outcome }
    | none =>
        { tracker with
          completedProbes := tracker.completedProbes.insert paymentHash outcome }

/-- `complete_success`. -/
def completeSuccess : ProbeTracker := completeProbe order now paymentHash .success tracker

/-- `complete_failed`. -/
def completeFailed : ProbeTracker := completeProbe order now paymentHash .failed tracker

/-! ## What pruning leaves -/

section Pruning

variable {m : TimedOutProbes} {h : PaymentHash}

theorem mem_of_mem_removeAll {entries : List (PaymentHash × Instant)} :
    h ∈ removeAll entries m → h ∈ m := by
  induction entries generalizing m with
  | nil => exact id
  | cons entry entries ih =>
      intro hm
      exact ExtTreeMap.mem_of_mem_erase (ih hm)

/-- Pruning adds no marker. -/
theorem mem_of_mem_prune (hm : h ∈ pruneTimedOutProbes order now m) : h ∈ m := by
  dsimp only [pruneTimedOutProbes] at hm
  split at hm
  · exact ExtTreeMap.mem_of_mem_filter hm
  · exact ExtTreeMap.mem_of_mem_filter (mem_of_mem_removeAll hm)

/-- What `complete_probe` does: use up a marker, send to the attempt that waits, or
    buffer the outcome. -/
theorem completeProbe_cases :
    let pruned := pruneTimedOutProbes order now tracker.timedOutProbes
    let completed := completeProbe order now paymentHash outcome tracker
    (paymentHash ∈ pruned ∧
      completed = { tracker with timedOutProbes := pruned.erase paymentHash }) ∨
    (paymentHash ∉ pruned ∧ ∃ sender : Nat,
      tracker.pendingProbes[paymentHash]? = some sender ∧
      completed = { pendingProbes := tracker.pendingProbes.erase paymentHash,
                    completedProbes := tracker.completedProbes, timedOutProbes := pruned,
                    channels := send tracker.channels sender outcome }) ∨
    (paymentHash ∉ pruned ∧ tracker.pendingProbes[paymentHash]? = none ∧
      completed = { pendingProbes := tracker.pendingProbes,
                    completedProbes := tracker.completedProbes.insert paymentHash outcome,
                    timedOutProbes := pruned, channels := tracker.channels }) := by
  intro pruned completed
  by_cases hmarked : paymentHash ∈ pruned
  · exact Or.inl ⟨hmarked, if_pos hmarked⟩
  · cases hsender : tracker.pendingProbes[paymentHash]? with
    | some sender =>
        refine Or.inr (Or.inl ⟨hmarked, sender, rfl, (if_neg hmarked).trans ?_⟩)
        simp only [prune, hsender]
        rfl
    | none =>
        refine Or.inr (Or.inr ⟨hmarked, rfl, (if_neg hmarked).trans ?_⟩)
        simp only [prune, hsender]
        rfl

/-- What `register_probe` does: take the buffered outcome, or wait for it. -/
theorem registerProbe_cases :
    let timedOut := (pruneTimedOutProbes order now tracker.timedOutProbes).erase paymentHash
    let registered := registerProbe order now paymentHash tracker
    (∃ outcome : ProbeOutcome, tracker.completedProbes[paymentHash]? = some outcome ∧
      registered.1 =
        { pendingProbes := tracker.pendingProbes,
          completedProbes := tracker.completedProbes.erase paymentHash,
          timedOutProbes := timedOut, channels := registered.1.channels } ∧
      Oneshot.poll registered.1.channels registered.2 = .ready outcome) ∨
    (tracker.completedProbes[paymentHash]? = none ∧
      registered.1 =
        { pendingProbes := tracker.pendingProbes.insert paymentHash registered.2,
          completedProbes := tracker.completedProbes,
          timedOutProbes := timedOut, channels := registered.1.channels } ∧
      Oneshot.poll registered.1.channels registered.2 = .pending) := by
  intro timedOut registered
  cases hbuffered : tracker.completedProbes[paymentHash]? with
  | some outcome =>
      have hreg : registered =
          ({ pendingProbes := tracker.pendingProbes,
             completedProbes := tracker.completedProbes.erase paymentHash,
             timedOutProbes := timedOut,
             channels := send (channel tracker.channels).2 (channel tracker.channels).1
               outcome }, (channel tracker.channels).1) := by
        simp only [registered, registerProbe, prune, hbuffered]
        rfl
      refine Or.inl ⟨outcome, rfl, ?_⟩
      rw [hreg]
      exact ⟨rfl, poll_send poll_channel⟩
  | none =>
      have hreg : registered =
          ({ pendingProbes := tracker.pendingProbes.insert paymentHash
               (channel (dropPending paymentHash (prune order now tracker))).1,
             completedProbes := tracker.completedProbes,
             timedOutProbes := timedOut,
             channels := (channel (dropPending paymentHash (prune order now tracker))).2 },
           (channel (dropPending paymentHash (prune order now tracker))).1) := by
        simp only [registered, registerProbe, prune, hbuffered]
        rfl
      refine Or.inr ⟨rfl, ?_⟩
      rw [hreg]
      exact ⟨rfl, poll_channel⟩

end Pruning

end Tracker
