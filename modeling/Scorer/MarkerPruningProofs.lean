import Scorer.TrackerCallsProofs

/-! # Which markers pruning keeps

    `prune_timed_out_probes` drops the expired markers and then, if there are more than
    the cap, the oldest of those that are left.  Markers of the same age are dropped in
    the order in which the pass over the hash map finds them.

    * `retained_get`: the first pass keeps exactly the unexpired markers;
    * `removeAll_get`, `removeAll_size`: the second removes exactly the excess;
    * `prune_keeps_newest`: what is kept, for every map, clock reading and order, and
      how many markers there can be after any calls. -/

namespace MarkerPruning

open Std (ExtTreeMap)
open PaymentStore Tracker TrackerCalls

variable {m : TimedOutProbes} {h : PaymentHash} {timedOutAt : Instant}
  {entries : List (PaymentHash × Instant)}

/-! ## The expired -/

/-- A marker that is not older than the time to live. -/
def Unexpired (now : Instant) (timedOutAt : Instant) : Prop :=
  now - timedOutAt ≤ timedOutProbeTtl

instance unexpiredDecidable (now timedOutAt : Instant) : Decidable (Unexpired now timedOutAt) :=
  inferInstanceAs (Decidable (now - timedOutAt ≤ timedOutProbeTtl))

/-- How many markers the pruning lets live by age alone. -/
def unexpiredCount (now : Instant) (m : TimedOutProbes) : Nat :=
  m.toList.countP fun entry => decide (Unexpired now entry.2)

/-- What is retained is what is not expired, counted. -/
theorem retained_size (now : Instant) (m : TimedOutProbes) :
    (retained now m).size = unexpiredCount now m := by
  rw [← ExtTreeMap.length_toList, retained, ExtTreeMap.toList_filter, unexpiredCount,
    List.countP_eq_length_filter]
  rfl

/-- What is retained is what is not expired, marker by marker. -/
theorem retained_get {now : Instant} :
    (retained now m)[h]? = some timedOutAt ↔
      m[h]? = some timedOutAt ∧ Unexpired now timedOutAt := by
  rw [retained, ExtTreeMap.getElem?_filter', Option.filter_eq_some_iff, decide_eq_true_eq]
  exact Iff.rfl

/-! ## The excess -/

/-- Removing entries empties their keys and no others. -/
theorem removeAll_get : (removeAll entries m)[h]? =
    if h ∈ entries.map Prod.fst then none else m[h]? := by
  induction entries generalizing m with
  | nil => rfl
  | cons entry entries ih =>
      have hrest : (removeAll (entry :: entries) m)[h]? =
          (removeAll entries (m.erase entry.1))[h]? := rfl
      rw [hrest, ih, ExtTreeMap.getElem?_erase, List.map_cons]
      by_cases hmem : h ∈ entries.map Prod.fst
      · rw [if_pos hmem, if_pos (List.mem_cons_of_mem _ hmem)]
      · rw [if_neg hmem]
        by_cases heq : h = entry.1
        · rw [if_pos (Std.compare_eq_iff_eq.mpr heq.symm), if_pos (heq ▸ List.mem_cons_self)]
        · rw [if_neg (fun hc => heq (Std.compare_eq_iff_eq.mp hc).symm),
            if_neg (List.mem_cons.not.mpr (not_or.mpr ⟨heq, hmem⟩))]

/-- Each entry that is there, and is removed once, is one marker less. -/
theorem removeAll_size (hd : (entries.map Prod.fst).Nodup)
    (hmem : ∀ entry ∈ entries, entry.1 ∈ m) :
    (removeAll entries m).size = m.size - entries.length := by
  induction entries generalizing m with
  | nil => rfl
  | cons entry entries ih =>
      obtain ⟨hfirst, hd⟩ := List.nodup_cons.mp hd
      have hrest : (removeAll (entry :: entries) m).size =
          (removeAll entries (m.erase entry.1)).size := rfl
      have hsize : (m.erase entry.1).size = m.size - 1 := by
        rw [ExtTreeMap.size_erase,
          if_pos (ExtTreeMap.contains_iff_mem.mpr (hmem entry List.mem_cons_self))]
      rw [hrest, ih hd, hsize, List.length_cons, Nat.sub_sub, Nat.add_comm 1]
      intro other hother
      refine mem_erase_iff.mpr ⟨?_, hmem other (List.mem_cons_of_mem _ hother)⟩
      intro heq
      exact hfirst (heq ▸ List.mem_map_of_mem hother)

/-- The markers by age, oldest first, whatever the order of the pass. -/
def byAge (order : IterOrder) (m : TimedOutProbes) : List (PaymentHash × Instant) :=
  (order.iter m).mergeSort fun a b => a.2 ≤ b.2

section ByAge

variable (order : IterOrder)

/-- The sorted vector has the markers of the map. -/
theorem byAge_perm (m : TimedOutProbes) : (byAge order m).Perm m.toList :=
  (List.mergeSort_perm _ _).trans (order.perm m)

/-- An entry of the sorted vector is a marker of the map. -/
theorem mem_byAge : (h, timedOutAt) ∈ byAge order m ↔ m[h]? = some timedOutAt := by
  rw [(byAge_perm order m).mem_iff]
  exact ExtTreeMap.mem_toList_iff_getElem?_eq_some

theorem byAge_length (m : TimedOutProbes) : (byAge order m).length = m.size :=
  (byAge_perm order m).length_eq.trans ExtTreeMap.length_toList

theorem byAge_nodup (m : TimedOutProbes) : ((byAge order m).map Prod.fst).Nodup := by
  have htoList : (m.toList.map Prod.fst).Nodup := by
    rw [List.nodup_iff_pairwise_ne, List.pairwise_map]
    exact ExtTreeMap.distinct_keys_toList.imp fun hne heq => hne (Std.compare_eq_iff_eq.mpr heq)
  exact ((byAge_perm order m).map Prod.fst).nodup_iff.mpr htoList

/-- Older markers come first. -/
theorem byAge_sorted (m : TimedOutProbes) :
    (byAge order m).Pairwise fun a b => a.2 ≤ b.2 := by
  have hsorted : (byAge order m).Pairwise fun a b => decide (a.2 ≤ b.2) = true := by
    refine List.pairwise_mergeSort ?_ ?_ (order.iter m)
    · intro a b c hab hbc
      exact decide_eq_true (Nat.le_trans (of_decide_eq_true hab) (of_decide_eq_true hbc))
    · intro a b
      rcases Nat.le_total a.2 b.2 with hle | hle
      · rw [decide_eq_true hle, Bool.true_or]
      · rw [decide_eq_true hle, Bool.or_true]
  exact hsorted.imp fun hle => of_decide_eq_true hle

/-- The loop stops at the oldest markers over the limit. -/
theorem excess_eq (m : TimedOutProbes) :
    excess order m = (byAge order m).take (m.size - maxTimedOutProbes) := rfl

/-- No marker is over the limit twice. -/
theorem excess_nodup (m : TimedOutProbes) : ((excess order m).map Prod.fst).Nodup := by
  rw [excess_eq, List.map_take]
  exact (byAge_nodup order m).sublist (List.take_sublist _ _)

theorem mem_of_mem_excess (hmem : (h, timedOutAt) ∈ excess order m) :
    m[h]? = some timedOutAt :=
  (mem_byAge order).mp (List.mem_of_mem_take hmem)

/-- Exactly as many as are over the limit are removed. -/
theorem excess_length (m : TimedOutProbes) :
    (excess order m).length = m.size - maxTimedOutProbes := by
  rw [excess_eq, List.length_take, byAge_length]
  exact Nat.min_eq_left (Nat.sub_le _ _)

/-- What is not in the excess is not older than what is. -/
theorem excess_older {h' : PaymentHash} {timedOutAt' : Instant}
    (hmem : (h', timedOutAt') ∈ excess order m) (hkept : m[h]? = some timedOutAt)
    (hnot : h ∉ (excess order m).map Prod.fst) : timedOutAt' ≤ timedOutAt := by
  have hin : (h, timedOutAt) ∈ byAge order m := (mem_byAge order).mpr hkept
  rw [← List.take_append_drop (m.size - maxTimedOutProbes) (byAge order m)] at hin
  have hdrop : (h, timedOutAt) ∈ (byAge order m).drop (m.size - maxTimedOutProbes) := by
    rcases List.mem_append.mp hin with htake | hdrop
    · exact absurd (List.mem_map_of_mem htake) hnot
    · exact hdrop
  have hsorted := byAge_sorted order m
  rw [← List.take_append_drop (m.size - maxTimedOutProbes) (byAge order m)] at hsorted
  exact (List.pairwise_append.mp hsorted).2.2 _ hmem _ hdrop

end ByAge

/-! ## Pruning -/

/-- What pruning leaves of `m`: unexpired markers, all of them if they are at most the
    cap, and otherwise as many as the cap, no younger one having been removed. -/
structure KeepsNewest (now : Instant) (m kept : TimedOutProbes) : Prop where
  unexpired : ∀ (h : PaymentHash) (timedOutAt : Instant), kept[h]? = some timedOutAt →
    m[h]? = some timedOutAt ∧ Unexpired now timedOutAt
  all : unexpiredCount now m ≤ maxTimedOutProbes →
    ∀ (h : PaymentHash) (timedOutAt : Instant), m[h]? = some timedOutAt →
      Unexpired now timedOutAt → kept[h]? = some timedOutAt
  cap : maxTimedOutProbes < unexpiredCount now m → kept.size = maxTimedOutProbes
  newest : ∀ (h h' : PaymentHash) (timedOutAt timedOutAt' : Instant),
    kept[h]? = some timedOutAt → m[h']? = some timedOutAt' → Unexpired now timedOutAt' →
    h' ∉ kept → timedOutAt' ≤ timedOutAt

/-- With few markers the pruning is by age alone. -/
theorem prune_few {now : Instant} (order : IterOrder)
    (hfew : unexpiredCount now m ≤ maxTimedOutProbes) :
    pruneTimedOutProbes order now m = retained now m :=
  if_pos ((retained_size now m).le.trans hfew)

/-- With many, the oldest of what is retained go too. -/
theorem prune_many {now : Instant} (order : IterOrder)
    (hmany : ¬ unexpiredCount now m ≤ maxTimedOutProbes) :
    pruneTimedOutProbes order now m =
      removeAll (excess order (retained now m)) (retained now m) :=
  if_neg fun hle => hmany ((retained_size now m).ge.trans hle)

/-- What is left then fills the limit. -/
theorem prune_many_size {now : Instant} (order : IterOrder)
    (hmany : ¬ unexpiredCount now m ≤ maxTimedOutProbes) :
    (pruneTimedOutProbes order now m).size = maxTimedOutProbes := by
  have hmem : ∀ entry ∈ excess order (retained now m), entry.1 ∈ retained now m :=
    fun entry hentry => mem_of_some (mem_of_mem_excess order hentry)
  have hsize := retained_size now m
  rw [prune_many order hmany, removeAll_size (excess_nodup order _) hmem, excess_length]
  omega

/-- **THE LIMIT**: no pruning leaves more markers than the limit. -/
theorem prune_size (order : IterOrder) (now : Instant) (m : TimedOutProbes) :
    (pruneTimedOutProbes order now m).size ≤ maxTimedOutProbes := by
  by_cases hfew : unexpiredCount now m ≤ maxTimedOutProbes
  · rw [prune_few order hfew, retained_size]
    exact hfew
  · exact le_of_eq (prune_many_size order hfew)

/-- What a pruning keeps is not older than what it drops for want of room. -/
theorem prune_newest (order : IterOrder) (now : Instant) (m : TimedOutProbes) :
    KeepsNewest now m (pruneTimedOutProbes order now m) := by
  by_cases hfew : unexpiredCount now m ≤ maxTimedOutProbes
  · rw [prune_few order hfew]
    refine ⟨fun h t hkept => retained_get.mp hkept,
      fun _ h t hm hfresh => retained_get.mpr ⟨hm, hfresh⟩,
      fun hmany => absurd hfew (Nat.not_le_of_lt hmany), ?_⟩
    intro h h' t t' _ hm hfresh hnot
    exact absurd (mem_of_some (retained_get.mpr ⟨hm, hfresh⟩)) hnot
  · have hsize := prune_many_size order hfew
    have hget : ∀ h : PaymentHash, (pruneTimedOutProbes order now m)[h]? =
        if h ∈ (excess order (retained now m)).map Prod.fst then none
        else (retained now m)[h]? := by
      intro h
      rw [prune_many order hfew, removeAll_get]
    refine ⟨fun h t hkept => ?_, fun hle => absurd hle hfew, fun _ => hsize, ?_⟩
    · rw [hget] at hkept
      split at hkept
      · exact nomatch hkept
      · exact retained_get.mp hkept
    · intro h h' t t' hkept hm hfresh hnot
      have hretained : (retained now m)[h']? = some t' := retained_get.mpr ⟨hm, hfresh⟩
      -- a fresh marker goes only for want of room
      have hremoved : h' ∈ (excess order (retained now m)).map Prod.fst := by
        by_contra hin
        have hstill := hget h'
        rw [if_neg hin, hretained] at hstill
        exact hnot (mem_of_some hstill)
      obtain ⟨entry, hentry, rfl⟩ := List.mem_map.mp hremoved
      have htime := mem_of_mem_excess order hentry
      obtain rfl := Option.some.inj (htime.symm.trans hretained)
      rw [hget] at hkept
      split at hkept
      · exact nomatch hkept
      · rename_i hnotExcess
        exact excess_older order hentry hkept hnotExcess

/-! ## The number of markers -/

/-- Only `mark_timed_out` adds a marker, and it prunes first. -/
theorem effect_size {tracker after : ProbeTracker} {pruned : TimedOutProbes}
    (heffect : Effect tracker h pruned after) :
    after.timedOutProbes.size ≤ pruned.size + 1 := by
  have herase : (pruned.erase h).size ≤ pruned.size := ExtTreeMap.size_erase_le
  cases heffect with
  | markerUsed hmarked => exact Nat.le_succ_of_le herase
  | delivered channels hpending hmarked => exact Nat.le_succ pruned.size
  | buffered outcome hpending hmarked => exact Nat.le_succ pruned.size
  | taken channels hcompleted => exact Nat.le_succ_of_le herase
  | awaited receiver channels hcompleted => exact Nat.le_succ_of_le herase
  | givenUp later channels => exact ExtTreeMap.size_insert_le

/-- Between two prunings there is room for one marker more. -/
theorem afterCalls_size (calls : List TrackerCall) :
    (afterCalls calls).timedOutProbes.size ≤ maxTimedOutProbes + 1 := by
  rcases List.eq_nil_or_concat calls with rfl | ⟨earlier, call, rfl⟩
  · exact Nat.zero_le _
  · rw [List.concat_eq_append, afterCalls_concat]
    have hpruned := prune_size call.order call.now (afterCalls earlier).timedOutProbes
    exact Nat.le_trans (effect_size (applyCall_effect _ call)) (Nat.succ_le_succ hpruned)

/-- **THE NEWEST UNEXPIRED MARKERS ARE KEPT**: for every map, order and clock reading;
    and after any calls there is at most one marker over the cap. -/
theorem prune_keeps_newest :
    (∀ (order : IterOrder) (now : Instant) (m : TimedOutProbes),
      KeepsNewest now m (pruneTimedOutProbes order now m)) ∧
    ∀ calls : List TrackerCall,
      (afterCalls calls).timedOutProbes.size ≤ maxTimedOutProbes + 1 :=
  ⟨prune_newest, afterCalls_size⟩

end MarkerPruning
