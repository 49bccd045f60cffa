import Scorer.ProbeTrackerProofs

/-! # Every hash is in one state

    A hash is pending, completed or timed out, or unknown to the tracker, whatever the
    order in which the probing task and the event handler call it.

    * `afterCalls`: a fresh tracker after any calls, each with its own clock reading;
    * `OneState`: the three maps have no key in common;
    * `OnlyTouches`: a call changes other hashes only by evicting markers;
    * `calls_keep_one_state`: both hold of every call of every run. -/

namespace TrackerCalls

open Std PaymentStore Tracker

/-! ## Calls -/

/-- An operation; the clock is read again for the marker of `mark_timed_out`. -/
inductive TrackerOp where
  | registerProbe
  | completeSuccess
  | completeFailed
  | markTimedOut (later : Instant)
  deriving DecidableEq, Repr

/-- A call of the tracker, with the clock and the iteration order it finds. -/
structure TrackerCall where
  op          : TrackerOp
  paymentHash : PaymentHash
  order       : IterOrder
  now         : Instant

/-- What a call leaves. -/
def applyCall (tracker : ProbeTracker) (call : TrackerCall) : ProbeTracker :=
  match call.op with
  | .registerProbe => (registerProbe call.order call.now call.paymentHash tracker).1
  | .completeSuccess => completeSuccess call.order call.now call.paymentHash tracker
  | .completeFailed => completeFailed call.order call.now call.paymentHash tracker
  | .markTimedOut later => markTimedOut call.order call.now call.paymentHash tracker later

/-- The tracker after calls, from a new one. -/
def afterCalls (calls : List TrackerCall) : ProbeTracker := calls.foldl applyCall newTracker

/-- No hash is a key of two of the maps. -/
structure OneState (tracker : ProbeTracker) : Prop where
  pendingCompleted : ∀ h ∈ tracker.pendingProbes, h ∉ tracker.completedProbes
  pendingTimedOut : ∀ h ∈ tracker.pendingProbes, h ∉ tracker.timedOutProbes
  completedTimedOut : ∀ h ∈ tracker.completedProbes, h ∉ tracker.timedOutProbes

/-- The markers that pruning leaves at the start of a call. -/
def prunedMarkers (tracker : ProbeTracker) (call : TrackerCall) : TimedOutProbes :=
  pruneTimedOutProbes call.order call.now tracker.timedOutProbes

/-- A call changes the membership of other hashes only by evicting their markers. -/
structure OnlyTouches (tracker : ProbeTracker) (call : TrackerCall) (after : ProbeTracker) :
    Prop where
  pending : ∀ h, h ≠ call.paymentHash → (h ∈ after.pendingProbes ↔ h ∈ tracker.pendingProbes)
  completed : ∀ h, h ≠ call.paymentHash →
    (h ∈ after.completedProbes ↔ h ∈ tracker.completedProbes)
  timedOut : ∀ h, h ≠ call.paymentHash →
    (h ∈ after.timedOutProbes ↔
      h ∈ tracker.timedOutProbes ∧ h ∈ prunedMarkers tracker call)

/-! ## Keys of a map -/

section Keys

variable {β : Type} {m : ExtTreeMap PaymentHash β} {h other : PaymentHash} {v : β}

theorem mem_erase_iff : other ∈ m.erase h ↔ other ≠ h ∧ other ∈ m := by
  rw [ExtTreeMap.mem_erase]
  exact and_congr_left fun _ => not_congr (Std.compare_eq_iff_eq.trans eq_comm)

theorem mem_insert_iff : other ∈ m.insert h v ↔ other = h ∨ other ∈ m := by
  rw [ExtTreeMap.mem_insert]
  exact or_congr_left (Std.compare_eq_iff_eq.trans eq_comm)

/-- A removal leaves the other hashes. -/
theorem mem_erase_other (hne : other ≠ h) : other ∈ m.erase h ↔ other ∈ m := by
  rw [mem_erase_iff, and_iff_right hne]

/-- An insertion leaves the other hashes. -/
theorem mem_insert_other (hne : other ≠ h) : other ∈ m.insert h v ↔ other ∈ m := by
  rw [mem_insert_iff, or_iff_right hne]

theorem not_mem_erase_self : h ∉ m.erase h := by
  intro hmem
  exact (mem_erase_iff.mp hmem).1 rfl

/-- A look-up that fails, as non-membership. -/
theorem not_mem_of_none (hnone : m[h]? = none) : h ∉ m := by
  intro hmem
  rw [ExtTreeMap.getElem?_eq_some_getElem hmem] at hnone
  exact nomatch hnone

/-- A look-up that succeeds, as membership. -/
theorem mem_of_some (hsome : m[h]? = some v) : h ∈ m := by
  by_contra hnot
  rw [ExtTreeMap.getElem?_eq_none hnot] at hsome
  exact nomatch hsome

/-! Maps without a common key. -/

variable {γ : Type} {n : ExtTreeMap PaymentHash γ} {w : γ}

/-- Two maps stay apart when one loses a hash. -/
theorem apart_erase_left (hapart : ∀ other ∈ m, other ∉ n) :
    ∀ other ∈ m.erase h, other ∉ n := by
  intro other hm
  exact hapart other (ExtTreeMap.mem_of_mem_erase hm)

theorem apart_erase_right (hapart : ∀ other ∈ m, other ∉ n) :
    ∀ other ∈ m, other ∉ n.erase h := by
  intro other hm hn
  exact hapart other hm (ExtTreeMap.mem_of_mem_erase hn)

/-- Two maps stay apart when one gains a hash that the other has not. -/
theorem apart_insert_left (hapart : ∀ other ∈ m, other ∉ n) (hnew : h ∉ n) :
    ∀ other ∈ m.insert h v, other ∉ n := by
  intro other hm
  rcases mem_insert_iff.mp hm with rfl | hm
  · exact hnew
  · exact hapart other hm

theorem apart_insert_right (hapart : ∀ other ∈ m, other ∉ n) (hnew : h ∉ m) :
    ∀ other ∈ m, other ∉ n.insert h w := by
  intro other hm hn
  rcases mem_insert_iff.mp hn with rfl | hn
  · exact hnew hm
  · exact hapart other hm hn

end Keys

/-! ## One call -/

variable {tracker after : ProbeTracker} {call : TrackerCall} {h : PaymentHash}
  {pruned : TimedOutProbes}

/-- What a call on `h` can do once the markers are pruned. -/
inductive Effect (tracker : ProbeTracker) (h : PaymentHash) (pruned : TimedOutProbes) :
    ProbeTracker → Prop where
  | markerUsed (hmarked : h ∈ pruned) :
      Effect tracker h pruned { tracker with timedOutProbes := pruned.erase h }
  | delivered (channels : Oneshot.Channels ProbeOutcome) (hpending : h ∈ tracker.pendingProbes)
      (hmarked : h ∉ pruned) :
      Effect tracker h pruned
        ⟨tracker.pendingProbes.erase h, tracker.completedProbes, pruned, channels⟩
  | buffered (outcome : ProbeOutcome) (hpending : h ∉ tracker.pendingProbes)
      (hmarked : h ∉ pruned) :
      Effect tracker h pruned
        ⟨tracker.pendingProbes, tracker.completedProbes.insert h outcome, pruned,
          tracker.channels⟩
  | taken (channels : Oneshot.Channels ProbeOutcome) (hcompleted : h ∈ tracker.completedProbes) :
      Effect tracker h pruned
        ⟨tracker.pendingProbes, tracker.completedProbes.erase h, pruned.erase h, channels⟩
  | awaited (receiver : Nat) (channels : Oneshot.Channels ProbeOutcome)
      (hcompleted : h ∉ tracker.completedProbes) :
      Effect tracker h pruned
        ⟨tracker.pendingProbes.insert h receiver, tracker.completedProbes, pruned.erase h,
          channels⟩
  | givenUp (later : Instant) (channels : Oneshot.Channels ProbeOutcome) :
      Effect tracker h pruned
        ⟨tracker.pendingProbes.erase h, tracker.completedProbes.erase h,
          pruned.insert h later, channels⟩

/-- Every branch of a completion is one of the effects. -/
theorem completeProbe_effect (order : IterOrder) (now : Instant) (outcome : ProbeOutcome) :
    Effect tracker h (pruneTimedOutProbes order now tracker.timedOutProbes)
      (completeProbe order now h outcome tracker) := by
  rcases completeProbe_cases order now h outcome tracker with
    ⟨hmarked, heq⟩ | ⟨hmarked, sender, hsender, heq⟩ | ⟨hmarked, hsender, heq⟩
  · rw [heq]
    exact .markerUsed hmarked
  · rw [heq]
    exact .delivered _ (mem_of_some hsender) hmarked
  · rw [heq]
    exact .buffered outcome (not_mem_of_none hsender) hmarked

/-- So is every branch of a registration. -/
theorem registerProbe_effect (order : IterOrder) (now : Instant) :
    Effect tracker h (pruneTimedOutProbes order now tracker.timedOutProbes)
      (registerProbe order now h tracker).1 := by
  rcases registerProbe_cases order now h tracker with
    ⟨outcome, hbuffered, heq, -⟩ | ⟨hbuffered, heq, -⟩
  · rw [heq]
    exact .taken _ (mem_of_some hbuffered)
  · rw [heq]
    exact .awaited _ _ (not_mem_of_none hbuffered)

/-- A call prunes if it is one of those that do, and has one effect on its own hash. -/
theorem applyCall_effect (tracker : ProbeTracker) (call : TrackerCall) :
    Effect tracker call.paymentHash (prunedMarkers tracker call) (applyCall tracker call) := by
  rw [applyCall]
  split
  · exact registerProbe_effect call.order call.now
  · exact completeProbe_effect call.order call.now .success
  · exact completeProbe_effect call.order call.now .failed
  · exact .givenUp _ _

/-- **ONE CALL KEEPS ONE STATE**: `register_probe` does so for a buffered hash because
    such a hash was not pending before. -/
theorem Effect.oneState (hone : OneState tracker)
    (hsubset : ∀ other ∈ pruned, other ∈ tracker.timedOutProbes)
    (heffect : Effect tracker h pruned after) : OneState after := by
  -- pruning only takes markers away, so the maps stay apart from them
  have hpt : ∀ other ∈ tracker.pendingProbes, other ∉ pruned :=
    fun other hp ht => hone.pendingTimedOut other hp (hsubset other ht)
  have hct : ∀ other ∈ tracker.completedProbes, other ∉ pruned :=
    fun other hc ht => hone.completedTimedOut other hc (hsubset other ht)
  cases heffect with
  | markerUsed hmarked =>
      exact ⟨hone.pendingCompleted, apart_erase_right hpt, apart_erase_right hct⟩
  | delivered channels hpending hmarked =>
      exact ⟨apart_erase_left hone.pendingCompleted, apart_erase_left hpt, hct⟩
  | buffered outcome hpending hmarked =>
      exact ⟨apart_insert_right hone.pendingCompleted hpending, hpt,
        apart_insert_left hct hmarked⟩
  | taken channels hcompleted =>
      exact ⟨apart_erase_right hone.pendingCompleted, apart_erase_right hpt,
        apart_erase_left (apart_erase_right hct)⟩
  | awaited receiver channels hcompleted =>
      exact ⟨apart_insert_left hone.pendingCompleted hcompleted,
        apart_insert_left (apart_erase_right hpt) not_mem_erase_self, apart_erase_right hct⟩
  | givenUp later channels =>
      exact ⟨apart_erase_left (apart_erase_right hone.pendingCompleted),
        apart_insert_right (apart_erase_left hpt) not_mem_erase_self,
        apart_insert_right (apart_erase_left hct) not_mem_erase_self⟩

/-- **ONE CALL TOUCHES ONE HASH**, markers apart. -/
theorem Effect.onlyTouches (heffect : Effect tracker h pruned after) :
    (∀ other, other ≠ h → (other ∈ after.pendingProbes ↔ other ∈ tracker.pendingProbes)) ∧
    (∀ other, other ≠ h →
      (other ∈ after.completedProbes ↔ other ∈ tracker.completedProbes)) ∧
    ∀ other, other ≠ h → (other ∈ after.timedOutProbes ↔ other ∈ pruned) := by
  cases heffect with
  | markerUsed hmarked =>
      exact ⟨fun _ _ => Iff.rfl, fun _ _ => Iff.rfl, fun _ hne => mem_erase_other hne⟩
  | delivered channels hpending hmarked =>
      exact ⟨fun _ hne => mem_erase_other hne, fun _ _ => Iff.rfl, fun _ _ => Iff.rfl⟩
  | buffered outcome hpending hmarked =>
      exact ⟨fun _ _ => Iff.rfl, fun _ hne => mem_insert_other hne, fun _ _ => Iff.rfl⟩
  | taken channels hcompleted =>
      exact ⟨fun _ _ => Iff.rfl, fun _ hne => mem_erase_other hne,
        fun _ hne => mem_erase_other hne⟩
  | awaited receiver channels hcompleted =>
      exact ⟨fun _ hne => mem_insert_other hne, fun _ _ => Iff.rfl,
        fun _ hne => mem_erase_other hne⟩
  | givenUp later channels =>
      exact ⟨fun _ hne => mem_erase_other hne, fun _ hne => mem_erase_other hne,
        fun _ hne => mem_insert_other hne⟩

/-- Pruning makes no marker. -/
theorem pruned_subset (hm : h ∈ prunedMarkers tracker call) : h ∈ tracker.timedOutProbes :=
  mem_of_mem_prune call.order call.now hm

/-- **ONE HASH**: but for the markers that it prunes, a call changes what is kept for its
    own hash only. -/
theorem applyCall_onlyTouches (tracker : ProbeTracker) (call : TrackerCall) :
    OnlyTouches tracker call (applyCall tracker call) := by
  obtain ⟨hpending, hcompleted, htimedOut⟩ := (applyCall_effect tracker call).onlyTouches
  refine ⟨hpending, hcompleted, fun other hne => (htimedOut other hne).trans ?_⟩
  constructor
  · intro hpruned
    exact ⟨pruned_subset hpruned, hpruned⟩
  · exact And.right

/-! ## Any calls -/

theorem afterCalls_concat (calls : List TrackerCall) (call : TrackerCall) :
    afterCalls (calls ++ [call]) = applyCall (afterCalls calls) call := by
  rw [afterCalls, List.foldl_append]
  rfl

/-- A new tracker keeps nothing. -/
theorem newTracker_oneState : OneState newTracker :=
  ⟨fun _ hp => absurd hp ExtTreeMap.not_mem_empty,
    fun _ hp => absurd hp ExtTreeMap.not_mem_empty,
    fun _ hc => absurd hc ExtTreeMap.not_mem_empty⟩

/-- The three maps stay apart over any calls. -/
theorem afterCalls_oneState (calls : List TrackerCall) : OneState (afterCalls calls) := by
  induction calls using List.reverseRecOn with
  | nil => exact newTracker_oneState
  | append_singleton calls call ih =>
      rw [afterCalls_concat]
      exact (applyCall_effect _ call).oneState ih fun _ hm => pruned_subset hm

/-- **ONE STATE FOR EACH HASH**: after every call of every run no hash is in two of the
    maps, and the call changed other hashes only by evicting markers. -/
theorem calls_keep_one_state (calls : List TrackerCall) (call : TrackerCall) :
    OneState (applyCall (afterCalls calls) call) ∧
      OnlyTouches (afterCalls calls) call (applyCall (afterCalls calls) call) := by
  constructor
  · rw [← afterCalls_concat]
    exact afterCalls_oneState (calls ++ [call])
  · exact applyCall_onlyTouches (afterCalls calls) call

end TrackerCalls
