import Scorer.PaymentNodeProofs

/-! # The node refines the processes over its stores

    A move of the node touches each store by at most one whole critical section
    or one completion.  So every process of the node, from its start-up to its
    end, is a run of `PaymentWrite.step` over single lock moves, and what holds of
    the files there holds of the node (`node_coherent`). -/

namespace PaymentRefine

open LabelledRun WriteOrder LockedStore PaymentStore PaymentWrite PaymentNode

variable {β : Type} {E : NodeEnv β} {s t : Node β} {a : NodeAction}

/-- What one move does to a store while the process lives. -/
inductive Effect {σ μ : Type} (c : Codec σ β) (apply : μ → σ → σ)
    (g h : Guarded σ β TaskId) : Prop where
  | same (hg : h = g)
  | changed (m : μ) (hg : h = critical c (apply m) g)
  | settled (i : Nat) (ok : Bool) (hg : settleWrite g i ok = some h)

/-- The move ends the process, starts one, or stays in it. -/
inductive Stay (E : NodeEnv β) (s t : Node β) : Prop where
  | off (ht : t = powerOff s) (hup : s.phase ≠ .down)
  | boot (rIn rOut : Bool) (ht : t = startUp E s rIn rOut)
  | started (hstart : s.phase = .starting) (hok : outcome s.outbound.file 0 = some true)
      (ht : t = { s with phase := .running })
  | moved (hphase : t.phase = s.phase)
      (hin : Effect E.cIn applyInbound s.inbound t.inbound)
      (hout : Effect E.cOut applyOutbound s.outbound t.outbound)
      (hrun : s.phase = .running ∨ t.inbound = s.inbound ∧
        (t.outbound = s.outbound ∨
          ∃ i ok, settleWrite s.outbound i ok = some t.outbound))

private theorem settleWrite_opened {σ : Type} {mem : σ} {base : Option β} {i : Nat}
    {ok : Bool} :
    settleWrite (opened mem base : Guarded σ β TaskId) i ok = none := rfl

/-- Before the tasks run, no inbound write is outstanding. -/
def InboundUnwritten (s : Node β) : Prop :=
  s.phase ≠ .running → ∃ mem base, s.inbound = opened mem base

/-- A store that the move does not touch. -/
private theorem stay_same (hphase : t.phase = s.phase) (hin : t.inbound = s.inbound)
    (hout : t.outbound = s.outbound) : Stay E s t :=
  .moved hphase (.same hin) (.same hout) (Or.inr ⟨hin, Or.inl hout⟩)

/-- Every move is a move of the two stores, or starts them anew. -/
theorem move_stay (hs : InboundUnwritten s) (h : Move E s a t) : Stay E s t := by
  cases h with
  | refused cmd => exact stay_same rfl rfl rfl
  | recorded hrun hplan =>
      exact .moved rfl (.same rfl) (.changed (.recordPending _ _) rfl) (Or.inl hrun)
  | invoiced hrun =>
      exact .moved rfl (.changed (.getInvoice _ _) rfl) (.same rfl) (Or.inl hrun)
  | resumed hrun hk ht => exact stay_same rfl rfl rfl
  | accepted hrun hk hnew => exact stay_same rfl rfl rfl
  | rejected hrun hk => exact stay_same rfl rfl rfl
  | marked hrun hk =>
      exact .moved rfl (.same rfl) (.changed (.sendRejected _) rfl) (Or.inl hrun)
  | @settledInbound i ok g hg =>
      refine .moved rfl (.settled i ok hg) (.same rfl) (Or.inl ?_)
      -- before the process runs, this store has no write to settle
      apply Classical.byContradiction
      intro hnot
      obtain ⟨mem, base, hopen⟩ := hs hnot
      rw [hopen, settleWrite_opened] at hg
      exact nomatch hg
  | @settledOutbound i ok g hg =>
      exact .moved rfl (.same rfl) (.settled i ok hg) (Or.inr ⟨rfl, Or.inr ⟨i, ok, hg⟩⟩)
  | emitted hup hev => exact stay_same rfl rfl rfl
  | @handled j ev hrun hj =>
      rw [handleEvent]
      split
      · exact stay_same rfl rfl rfl
      · rename_i m hm
        exact .moved rfl (.changed m rfl) (.same rfl) (Or.inl hrun)
      · rename_i m hm
        exact .moved rfl (.same rfl) (.changed m rfl) (Or.inl hrun)
  | forgotten hup hdone => exact stay_same rfl rfl rfl
  | crashed hup => exact .off rfl hup
  | booted hdown => exact .boot _ _ rfl
  | started hstart hok => exact .started hstart hok rfl
  | startFailed hstart hok =>
      exact .off rfl (fun h => nomatch hstart.symm.trans h)

/-! ## The process of a node -/

/-- The node as one process over its stores. -/
def toProcess (s : Node β) : Process β where
  phase := match s.phase with
    | .down => .stopped
    | .starting => .writing
    | .running => .running
  inbound := s.inbound
  outbound := s.outbound

/-- A run on the inbound store alone is a run of the process. -/
private theorem lift_inbound {p : Process β} (hrun : p.phase = .running)
    {g : Guarded InboundPaymentInfoStorage β TaskId}
    (h : Reach (LockedStore.step E.cIn applyInbound) anyStep p.inbound g) :
    Reach (PaymentWrite.step E.cIn E.cOut) anyStep p { p with inbound := g } := by
  induction h with
  | refl => exact reach_refl p
  | tail _ hst ih =>
      obtain ⟨a, -, ha⟩ := hst
      refine ih.trans (reach_step (a := .inbound a) trivial ?_)
      simp [PaymentWrite.step, hrun, ha]

/-- A run on the outbound store alone is a run of the process. -/
private theorem lift_outbound {p : Process β} (hrun : p.phase = .running)
    {g : Guarded OutboundPaymentInfoStorage β TaskId}
    (h : Reach (LockedStore.step E.cOut applyOutbound) anyStep p.outbound g) :
    Reach (PaymentWrite.step E.cIn E.cOut) anyStep p { p with outbound := g } := by
  induction h with
  | refl => exact reach_refl p
  | tail _ hst ih =>
      obtain ⟨a, -, ha⟩ := hst
      refine ih.trans (reach_step (a := .outbound a) trivial ?_)
      simp [PaymentWrite.step, hrun, ha]

/-- One effect on an unlocked store is a run of lock moves, and unlocks it again. -/
theorem effect_reach {σ μ : Type} {c : Codec σ β} {apply : μ → σ → σ}
    {g h : Guarded σ β TaskId} (hfree : g.lock = .free) (he : Effect c apply g h) :
    Reach (LockedStore.step c apply) anyStep g h ∧ h.lock = .free := by
  cases he with
  | same hg =>
      subst hg
      exact ⟨reach_refl _, hfree⟩
  | changed m hg =>
      subst hg
      exact ⟨critical_reach 0 m hfree, hfree⟩
  | settled i ok hg =>
      refine ⟨reach_step (a := .settle i ok) trivial hg, ?_⟩
      obtain ⟨f, -, rfl⟩ := settleWrite_cases hg
      exact hfree

/-- What connects the node to the process over its stores. -/
structure Refined (E : NodeEnv β) (s : Node β) : Prop where
  inboundFree : s.inbound.lock = .free
  outboundFree : s.outbound.lock = .free
  unwritten : InboundUnwritten s
  off : s.phase = .down → ∃ mem base, s.outbound = opened mem base
  run : s.phase ≠ .down → ∃ inMem inBase outMem outBase,
    Reach (PaymentWrite.step E.cIn E.cOut) anyStep
      (start inMem inBase outMem outBase) (toProcess s)

theorem offNode_refined (inFile outFile : Option β) (m : ChannelManager) :
    Refined E (offNode inFile outFile m) where
  inboundFree := rfl
  outboundFree := rfl
  unwritten := fun _ => ⟨∅, inFile, rfl⟩
  off := fun _ => ⟨∅, outFile, rfl⟩
  run := fun h => absurd rfl h

private theorem powerOff_refined (s : Node β) : Refined E (powerOff s) where
  inboundFree := rfl
  outboundFree := rfl
  unwritten := fun _ => ⟨_, _, rfl⟩
  off := fun _ => ⟨_, _, rfl⟩
  run := fun h => absurd rfl h

/-- The start-up code is the first two steps of a process. -/
private theorem startUp_refined (s : Node β) (rIn rOut : Bool) :
    Refined E (startUp E s rIn rOut) where
  inboundFree := rfl
  outboundFree := rfl
  unwritten := fun _ => ⟨_, _, rfl⟩
  off := fun h => nomatch h
  run := fun _ =>
    ⟨readPaymentInfo E.cIn rIn (content s.inbound.file), content s.inbound.file,
      readPaymentInfo E.cOut rOut (content s.outbound.file), content s.outbound.file,
      (reach_step (a := .reconcile s.manager.recentPayments) trivial rfl).trans
        (reach_step (a := .startWrite) trivial rfl)⟩

/-- Every move of the node keeps the refinement. -/
theorem move_refined (hs : Refined E s) (h : Move E s a t) : Refined E t := by
  cases move_stay hs.unwritten h with
  | off ht hup =>
      subst ht
      exact powerOff_refined s
  | boot rIn rOut ht =>
      subst ht
      exact startUp_refined s rIn rOut
  | started hstart hok ht =>
      subst ht
      refine ⟨hs.inboundFree, hs.outboundFree, fun h => absurd rfl h,
        (by rintro ⟨⟩), fun _ => ?_⟩
      -- the write of the start-up was the first of the file, and it has succeeded
      obtain ⟨im, ib, om, ob, hreach⟩ :=
        hs.run (by rw [hstart]; rintro ⟨⟩)
      refine ⟨im, ib, om, ob, hreach.trans (reach_step (a := .startDone) trivial ?_)⟩
      have hst : status s.outbound.file 0 = some .succeeded := by
        rw [outcome] at hok
        split at hok
        · assumption
        · cases hok
        · cases hok
      simp [PaymentWrite.step, toProcess, hstart, hst]
  | moved hphase hin hout hrun =>
      obtain ⟨hinReach, hinFree⟩ := effect_reach hs.inboundFree hin
      obtain ⟨houtReach, houtFree⟩ := effect_reach hs.outboundFree hout
      rcases hrun with hrun | ⟨hsameIn, hsettle⟩
      · -- the tasks run: both effects are runs of the process
        refine ⟨hinFree, houtFree, fun h => absurd (hphase.trans hrun) h,
          (by rw [hphase, hrun]; rintro ⟨⟩), fun _ => ?_⟩
        obtain ⟨im, ib, om, ob, hreach⟩ := hs.run (by rw [hrun]; rintro ⟨⟩)
        refine ⟨im, ib, om, ob, hreach.trans ?_⟩
        have hp : (toProcess s).phase = .running := by simp [toProcess, hrun]
        have h1 := lift_inbound (E := E) hp hinReach
        have h2 := lift_outbound (E := E) (p := { toProcess s with inbound := t.inbound })
          hp houtReach
        have heq : toProcess t =
            { { toProcess s with inbound := t.inbound } with outbound := t.outbound } := by
          simp [toProcess, hphase]
        rw [heq]
        exact h1.trans h2
      · -- before that only the start-up write may complete
        have hunw : InboundUnwritten t := by
          intro hn
          rw [hsameIn]
          exact hs.unwritten (hphase ▸ hn)
        rcases hsettle with hsameOut | ⟨i, ok, hset⟩
        · refine ⟨hinFree, houtFree, hunw,
            fun h => hsameOut ▸ hs.off (hphase.symm.trans h), fun hup => ?_⟩
          obtain ⟨im, ib, om, ob, hreach⟩ := hs.run (hphase ▸ hup)
          have heq : toProcess t = toProcess s := by
            simp [toProcess, hphase, hsameIn, hsameOut]
          exact ⟨im, ib, om, ob, heq ▸ hreach⟩
        · have hup : s.phase ≠ .down := by
            intro hd
            obtain ⟨mem, base, hopen⟩ := hs.off hd
            rw [hopen, settleWrite_opened] at hset
            cases hset
          refine ⟨hinFree, houtFree, hunw,
            fun h => absurd (hphase.symm.trans h) hup, fun _ => ?_⟩
          obtain ⟨im, ib, om, ob, hreach⟩ := hs.run hup
          refine ⟨im, ib, om, ob,
            hreach.trans (reach_step (a := .outbound (.settle i ok)) trivial ?_)⟩
          have hph : (toProcess s).phase = .running ∨
              ((toProcess s).phase = .writing ∧
                isSettle (LockAction.settle i ok : LockAction TaskId OutboundChange)
                  = true) := by
            cases hp : s.phase with
            | down => exact absurd hp hup
            | starting => exact Or.inr ⟨by simp [toProcess, hp], rfl⟩
            | running => exact Or.inl (by simp [toProcess, hp])
          rw [PaymentWrite.step, if_pos hph]
          simp only [LockedStore.step]
          rw [show (toProcess s).outbound = s.outbound from rfl, hset]
          simp [toProcess, hphase, hsameIn]

/-- **REFINEMENT**: every reachable node is a process of `PaymentWrite` between
    two whole critical sections. -/
theorem reach_refined {guard : Node β → NodeAction → Prop}
    (h : Reach (step E) guard s t) (hs : Refined E s) : Refined E t :=
  reach_invariant (fun _ _ _ hI _ hst => move_refined hI (step_move hst)) h hs

/-- The stores of a node are coherent with their files, and no change is
    unwritten. -/
theorem node_coherent (hs : Refined E s) :
    Coherent E.cIn s.inbound ∧ Coherent E.cOut s.outbound ∧ ¬ Unwritten s.inbound ∧
      ¬ Unwritten s.outbound := by
  refine ⟨?_, ?_, ?_, ?_⟩
  · by_cases hd : s.phase = .down
    · obtain ⟨mem, base, hopen⟩ := hs.unwritten (fun h => nomatch hd.symm.trans h)
      rw [hopen]
      exact opened_coherent mem base
    · obtain ⟨im, ib, om, ob, hreach⟩ := hs.run hd
      exact (reach_coherent hreach (start_coherent im ib om ob)).inbound
  · by_cases hd : s.phase = .down
    · obtain ⟨mem, base, hopen⟩ := hs.off hd
      rw [hopen]
      exact opened_coherent mem base
    · obtain ⟨im, ib, om, ob, hreach⟩ := hs.run hd
      exact (reach_coherent hreach (start_coherent im ib om ob)).outbound
  · rintro ⟨u, hu⟩
    exact nomatch hs.inboundFree.symm.trans hu
  · rintro ⟨u, hu⟩
    exact nomatch hs.outboundFree.symm.trans hu

/-! ## What an effect keeps -/

section Keeps

variable {σ μ : Type} {c : Codec σ β} {apply : μ → σ → σ} {g h : Guarded σ β TaskId}
  {P : σ → Prop} {w : Nat}

/-- A property of the calls, over an effect that keeps it. -/
theorem holdsFrom_effect (he : Effect c apply g h)
    (hP : ∀ m, h = critical c (apply m) g → P (apply m g.mem)) (hg : HoldsFrom P g w) :
    HoldsFrom P h w := by
  cases he with
  | same heq =>
      rw [heq]
      exact hg
  | changed m heq =>
      have hmem := hP m heq
      subst heq
      exact holdsFrom_critical hg hmem
  | settled i ok hset => exact holdsFrom_settle hg hset

/-- What has landed stays landed. -/
theorem landed_effect (he : Effect c apply g h) (hg : Landed g w) : Landed h w := by
  cases he with
  | same heq =>
      rw [heq]
      exact hg
  | changed m heq =>
      subst heq
      exact hg
  | settled i ok hset => exact landed_settle hg hset

/-- What lasts goes on to last, over an effect that keeps it. -/
theorem lasting_effect (hc : Coherent c g) (he : Effect c apply g h)
    (hP : ∀ m, h = critical c (apply m) g → P (apply m g.mem)) (hg : Lasting c P g) :
    Lasting c P h := by
  cases he with
  | same heq =>
      rw [heq]
      exact hg
  | changed m heq =>
      have hmem := hP m heq
      subst heq
      exact lasting_critical hc hg hmem
  | settled i ok hset => exact lasting_settle hc hg hset

end Keeps

/-- The write that a task waits for has succeeded, so it has landed. -/
theorem landed_of_outcome {w : Nat} (hs : Refined E s)
    (hok : outcome s.outbound.file w = some true) : Landed s.outbound w := by
  apply (node_coherent hs).2.1.ordered.covered
  rw [outcome] at hok
  split at hok
  · assumption
  · exact nomatch hok
  · exact nomatch hok

end PaymentRefine
