import Scorer.ProbeAttemptProofs

/-! # Buffered probe completions

    A completion is buffered when it comes before its attempt has registered.  One
    that comes after the attempt has timed out is to be dropped, which takes the
    marker that `mark_timed_out` left; the markers themselves go by age and number.

    * `MarkersLast`: every late completion still finds its marker;
    * `completions_do_not_accumulate`: in every run where the markers last, what is
      buffered is the outcome of the probe that is about to be registered;
    * `late_completions_accumulate`: without their markers, late completions stay. -/

namespace ProbeBuffer

open LabelledRun PaymentStore Tracker ProbeAttempt

variable {ε : Type} (timeout : Nat)

/-- The promises of the environment; and a completion of a hash that timed out finds
    a marker that the pruning before it has kept. -/
def MarkersLast (s : Probing ε) (a : ProbeAction ε) : Prop :=
  Promised s a ∧
  match a with
  | .complete order h _ =>
      .returned (.timeout h) ∈ s.log →
        h ∈ pruneTimedOutProbes order s.now s.tracker.timedOutProbes
  | _ => True

instance markersLastDecidable [DecidableEq ε] (s : Probing ε) :
    (a : ProbeAction ε) → Decidable (MarkersLast s a)
  | .complete order h o => inferInstanceAs (Decidable (Promised s (.complete order h o) ∧
      (.returned (.timeout h) ∈ s.log →
        h ∈ pruneTimedOutProbes order s.now s.tracker.timedOutProbes)))
  | .send r => inferInstanceAs (Decidable (Promised s (.send r) ∧ True))
  | .register order => inferInstanceAs (Decidable (Promised s (.register order) ∧ True))
  | .poll fired => inferInstanceAs (Decidable (Promised s (.poll fired) ∧ True))
  | .markTimedOut order delay =>
      inferInstanceAs (Decidable (Promised s (.markTimedOut order delay) ∧ True))
  | .pass duration => inferInstanceAs (Decidable (Promised s (.pass duration) ∧ True))
  | .poison => inferInstanceAs (Decidable (Promised s .poison ∧ True))

/-- What is buffered belongs to the probe that has been sent and not registered, and
    until the marker is there the sender waits for the completion. -/
structure Orderly (s : Probing ε) : Prop where
  attended : Attended s
  buffered : ∀ h ∈ s.tracker.completedProbes, s.phase = .sent h
  elapsed : ∀ h, s.phase = .elapsed h →
    Handled s.log h ∨ ∃ sender : Nat, s.tracker.pendingProbes[h]? = some sender

variable {s t : Probing ε} {h : PaymentHash} {o : ProbeOutcome}

/-- A new tracker buffers nothing. -/
theorem newProbing_orderly (now : Instant) : Orderly (newProbing now : Probing ε) where
  attended := newProbing_attended now
  buffered := fun _ hm => absurd hm Std.ExtTreeMap.not_mem_empty
  elapsed := by rintro _ ⟨⟩

/-- Unless a sent probe is to be registered, nothing is buffered. -/
theorem Orderly.none_buffered {phase : Phase} (hs : Orderly s) (hp : s.phase = phase)
    (hne : ∀ h, phase ≠ .sent h) (h : PaymentHash) : h ∉ s.tracker.completedProbes :=
  fun hm => hne h (hp.symm.trans (hs.buffered h hm))

/-- The probe to be registered takes its outcome out of the buffer. -/
private theorem register_buffered (hs : Orderly s) (hp : s.phase = .sent h)
    (order : IterOrder) (h' : PaymentHash) :
    h' ∉ (registerProbe order s.now h s.tracker).1.completedProbes := by
  rcases registerProbe_cases order s.now h s.tracker with
    ⟨o, -, heq, -⟩ | ⟨hnone, heq, -⟩
  · rw [heq]
    intro hm
    have hold := hs.buffered h' (Std.ExtTreeMap.mem_of_mem_erase hm)
    have hself : h = h' := Phase.sent.inj (hp.symm.trans hold)
    rw [← hself] at hm
    exact not_mem_of_get ((erase_get _ _ _).trans (if_pos rfl)) hm
  · rw [heq]
    intro hm
    have hself : h = h' := Phase.sent.inj (hp.symm.trans (hs.buffered h' hm))
    rw [← hself] at hm
    exact not_mem_of_get hnone hm

/-- A hash that is sent and not completed, and that no marker or sender waits for, is
    the one to be registered. -/
private theorem sent_of_unclaimed (hs : Orderly s) (hsent : .sent h ∈ s.log)
    (hnot : ¬ Handled s.log h) (htime : .returned (.timeout h) ∉ s.log)
    (hnone : s.tracker.pendingProbes[h]? = none) : s.phase = .sent h := by
  rcases hs.attended.accounted h hsent with hcur | ⟨c, hc, hh⟩
  · rcases unclaimed_phase hs.attended hnot hnone hcur with hphase | hphase
    · exact hphase
    · rcases hs.elapsed h hphase with hdone | ⟨sender, hpend⟩
      · exact absurd hdone hnot
      · cases hnone.symm.trans hpend
  · -- the attempt has returned: only a time-out leaves the hash uncompleted
    have htrue := hs.attended.history.truthful c hc
    cases c with
    | sendError err => cases hh
    | dropped h' => exact htrue.elim
    | timeout h' =>
        obtain rfl := Option.some.inj hh
        exact absurd hc htime
    | success h' =>
        obtain rfl := Option.some.inj hh
        exact absurd ⟨_, htrue⟩ hnot
    | failed h' =>
        obtain rfl := Option.some.inj hh
        exact absurd ⟨_, htrue⟩ hnot

/-- What was handled, or waited for, still is when another completion is logged. -/
private theorem elapsed_complete (hs : Orderly s) {pending : Std.ExtTreeMap PaymentHash Nat}
    (hkeep : ∀ h', h' ≠ h → pending[h']? = s.tracker.pendingProbes[h']?) (h' : PaymentHash)
    (hp : s.phase = .elapsed h') :
    Handled (.handled h o :: s.log) h' ∨ ∃ sender : Nat, pending[h']? = some sender := by
  by_cases hn : h' = h
  · exact Or.inl ⟨o, hn ▸ List.mem_cons_self⟩
  · rcases hs.elapsed h' hp with ⟨o', ho⟩ | ⟨sender, hpend⟩
    · exact Or.inl ⟨o', List.mem_cons_of_mem _ ho⟩
    · exact Or.inr ⟨sender, (hkeep h' hn).trans hpend⟩

/-- A completion is buffered only where no marker has expired too early. -/
private theorem complete_orderly (hs : Orderly s) (order : IterOrder)
    (hg : MarkersLast s (.complete order h o))
    (ht : Attended { s with tracker := completeProbe order s.now h o s.tracker,
                            log := .handled h o :: s.log }) :
    Orderly { s with tracker := completeProbe order s.now h o s.tracker,
                     log := .handled h o :: s.log } := by
  obtain ⟨⟨hsent, hnot⟩, hlast⟩ := hg
  rcases completeProbe_cases order s.now h o s.tracker with
    ⟨-, heq⟩ | ⟨-, sender, -, heq⟩ | ⟨hmarked, hnone, heq⟩
  · rw [heq] at ht ⊢
    exact ⟨ht, hs.buffered, elapsed_complete hs fun _ _ => rfl⟩
  · rw [heq] at ht ⊢
    refine ⟨ht, hs.buffered, elapsed_complete hs fun h' hn => ?_⟩
    rw [erase_get, if_neg hn]
  · -- the outcome is buffered: by the guard the attempt has not timed out
    have hphase := sent_of_unclaimed hs hsent hnot (fun ht => hmarked (hlast ht)) hnone
    rw [heq] at ht ⊢
    refine ⟨ht, fun h' hm => ?_, elapsed_complete hs fun _ _ => rfl⟩
    rcases Std.ExtTreeMap.mem_insert.mp hm with hself | hold
    · rw [← Std.LawfulEqCmp.eq_of_compare hself]
      exact hphase
    · exact hs.buffered h' hold

/-- One move, arm by arm. -/
theorem step_orderly {a : ProbeAction ε} (hs : Orderly s) (hg : MarkersLast s a)
    (hstep : step timeout s a = some t) : Orderly t := by
  have ht := step_attended timeout hs.attended hg.1 hstep
  cases step_move timeout hs.attended.unpoisoned hstep with
  | sent hp =>
      exact ⟨ht, fun h hm => absurd hm (hs.none_buffered hp (by rintro _ ⟨⟩) h),
        by rintro _ ⟨⟩⟩
  | unsent hp =>
      exact ⟨ht, fun h hm => absurd hm (hs.none_buffered hp (by rintro _ ⟨⟩) h),
        by rintro _ ⟨⟩⟩
  | @registered order _ hp =>
      exact ⟨ht, fun h hm => absurd hm (register_buffered hs hp order h), by rintro _ ⟨⟩⟩
  | arrived hp hpoll =>
      exact ⟨ht, fun h hm => absurd hm (hs.none_buffered hp (by rintro _ ⟨⟩) h),
        by rintro _ ⟨⟩⟩
  | closed hp hpoll => exact absurd hpoll (not_closed hs.attended hp)
  | @fired _ _ receiver _ hp hpoll htimer =>
      refine ⟨ht, fun h hm => absurd hm (hs.none_buffered hp (by rintro _ ⟨⟩) h),
        fun h hp' => Or.inr ?_⟩
      obtain rfl := Phase.elapsed.inj hp'
      exact ⟨receiver, (pending_unhandled hs.attended hp hpoll).2⟩
  | waits hp hpoll htimer => exact hs
  | marked hp =>
      exact ⟨ht, fun h' hm => absurd (Std.ExtTreeMap.mem_of_mem_erase hm)
        (hs.none_buffered hp (by rintro _ ⟨⟩) h'), by rintro _ ⟨⟩⟩
  | @completed order h o =>
      rw [handleProbe_eq] at ht ⊢
      exact complete_orderly hs order hg ht
  | passed => exact ⟨ht, hs.buffered, hs.elapsed⟩
  | poisoned => exact hg.1.elim

/-- A map whose keys are all the same has at most one. -/
private theorem size_le_one {V : Type} {m : Std.ExtTreeMap PaymentHash V}
    (hm : ∀ h ∈ m, ∀ h' ∈ m, h = h') : m.size ≤ 1 := by
  have hkeys : ∀ h ∈ m.keys, ∀ h' ∈ m.keys, h = h' := fun h hh h' hh' =>
    hm h (Std.ExtTreeMap.mem_keys.mp hh) h' (Std.ExtTreeMap.mem_keys.mp hh')
  have hnodup : m.keys.Nodup := Std.ExtTreeMap.nodup_keys
  rw [← Std.ExtTreeMap.length_keys]
  cases hk : m.keys with
  | nil => exact Nat.zero_le 1
  | cons h rest =>
      cases rest with
      | nil => exact Nat.le_refl 1
      | cons h' rest =>
          rw [hk] at hkeys hnodup
          have heq := hkeys h List.mem_cons_self h' (List.mem_cons_of_mem _ List.mem_cons_self)
          rw [heq] at hnodup
          exact absurd List.mem_cons_self (List.nodup_cons.mp hnodup).1

/-- **BUFFERED COMPLETIONS DO NOT ACCUMULATE**: in every run where each completion of
    a probe that timed out still finds its marker, what is buffered is the outcome of
    the probe that has been sent and not yet registered. -/
theorem completions_do_not_accumulate {now : Instant}
    (hr : Reach (step timeout) MarkersLast (newProbing now : Probing ε) s) :
    (∀ h ∈ s.tracker.completedProbes, s.phase = .sent h) ∧
      s.tracker.completedProbes.size ≤ 1 := by
  have hs : Orderly s := reach_invariant
    (fun _ _ _ hs hg h => step_orderly timeout hs hg h) hr (newProbing_orderly now)
  refine ⟨hs.buffered, size_le_one fun h hm h' hm' => ?_⟩
  exact Phase.sent.inj ((hs.buffered h hm).symm.trans (hs.buffered h' hm'))

/-- A hash for a run. -/
private def probeHash (n : UInt8) : PaymentHash := Vector.replicate 32 n

/-- One minute, the time an attempt waits. -/
private def minute : Nat := 60 * 1000000000

/-- A late completion within the fifteen minutes, and one that is buffered. -/
theorem completions_do_not_accumulate_late :
    ∃ s : Probing Unit, Reach (step minute) MarkersLast (newProbing 0) s ∧
      s.tracker.completedProbes.size ≤ 1 ∧
      .handled (probeHash 1) .failed ∈ s.log ∧ probeHash 2 ∈ s.tracker.completedProbes := by
  obtain ⟨s, hs, hcheck⟩ := reach_of_check (newProbing 0 : Probing Unit) (step minute)
    MarkersLast
    [.send (.ok (probeHash 1)), .register keyOrder, .pass minute, .poll true,
      .markTimedOut keyOrder 0, .pass (15 * minute), .send (.ok (probeHash 2)),
      .complete keyOrder (probeHash 1) .failed, .complete keyOrder (probeHash 2) .success]
    (fun s => decide (.handled (probeHash 1) .failed ∈ s.log ∧
      probeHash 2 ∈ s.tracker.completedProbes)) (by decide +kernel)
  obtain ⟨hlate, hbuffered⟩ := of_decide_eq_true hcheck
  exact ⟨s, hs, (completions_do_not_accumulate minute hs).2, hlate, hbuffered⟩

/-- Two probes time out and are completed when their markers have expired: no attempt
    is going on, and both outcomes stay. -/
theorem late_completions_accumulate :
    ∃ s : Probing Unit, Reach (step minute) Promised (newProbing 0) s ∧
      s.phase = .idle ∧ s.tracker.completedProbes.size = 2 := by
  obtain ⟨s, hs, hcheck⟩ := reach_of_check (newProbing 0 : Probing Unit) (step minute)
    Promised
    [.send (.ok (probeHash 1)), .register keyOrder, .pass minute, .poll true,
      .markTimedOut keyOrder 0, .send (.ok (probeHash 2)), .register keyOrder,
      .pass minute, .poll true, .markTimedOut keyOrder 0, .pass (15 * minute + 1),
      .complete keyOrder (probeHash 1) .failed, .complete keyOrder (probeHash 2) .failed]
    (fun s => decide (s.phase = .idle ∧ s.tracker.completedProbes.size = 2))
    (by decide +kernel)
  exact ⟨s, hs, of_decide_eq_true hcheck⟩

end ProbeBuffer
