import Mathlib.Data.List.Induction
import Mathlib.Logic.Relation

/-! # Runs of a partial step function

    A component is a state type, a label type and a partial step function
    `step : σ → α → Option σ`; `none` means that the label is not enabled.  A run
    may have to keep to a `guard` on the state and the label of each step: what
    the environment promises, or the condition under which a law is claimed.

    * `Reach step guard s t`: some run of guarded steps leads from `s` to `t`;
    * `reach_invariant`: what every guarded step keeps, every run keeps;
    * `reach_of_runIf`: a list of labels that executes is a run;
    * `Trace`, `Trace.simulated`: runs of a step relation, and how one system matches
      those of another. -/

namespace LabelledRun

variable {σ α : Type}

/-- Some label that the guard admits takes `s` to `t`. -/
def StepIf (step : σ → α → Option σ) (guard : σ → α → Prop) (s t : σ) : Prop :=
  ∃ a, guard s a ∧ step s a = some t

/-- The states that runs of guarded steps reach. -/
def Reach (step : σ → α → Option σ) (guard : σ → α → Prop) : σ → σ → Prop :=
  Relation.ReflTransGen (StepIf step guard)

/-- The guard that admits every step. -/
def anyStep : σ → α → Prop := fun _ _ => True

instance anyStepDecidable (s : σ) (a : α) : Decidable (anyStep s a) :=
  inferInstanceAs (Decidable True)

variable {step : σ → α → Option σ} {guard : σ → α → Prop} {s t u : σ}

theorem reach_refl (s : σ) : Reach step guard s s :=
  Relation.ReflTransGen.refl

theorem Reach.trans (h1 : Reach step guard s t) (h2 : Reach step guard t u) :
    Reach step guard s u :=
  Relation.ReflTransGen.trans h1 h2

theorem reach_step {a : α} (hg : guard s a) (h : step s a = some t) :
    Reach step guard s t :=
  Relation.ReflTransGen.single ⟨a, hg, h⟩

/-- **RUN INVARIANT**: what every guarded step keeps holds after every run. -/
theorem reach_invariant {I : σ → Prop}
    (hstep : ∀ s a t, I s → guard s a → step s a = some t → I t)
    (h : Reach step guard s t) (hs : I s) : I t := by
  induction h with
  | refl => exact hs
  | tail _ hst ih =>
      obtain ⟨a, hg, ha⟩ := hst
      exact hstep _ a _ ih hg ha

/-- A relation between the ends of a run: reflexive, transitive, kept by steps.
    The invariant `I` of the run is at hand in each step. -/
theorem reach_relates {I : σ → Prop} {R : σ → σ → Prop}
    (hrefl : ∀ s, R s s) (htrans : ∀ s t u, R s t → R t u → R s u)
    (hI : ∀ s a t, I s → guard s a → step s a = some t → I t)
    (hR : ∀ s a t, I s → guard s a → step s a = some t → R s t)
    (h : Reach step guard s t) (hs : I s) : R s t := by
  induction h with
  | refl => exact hrefl _
  | tail hpre hst ih =>
      obtain ⟨a, hg, ha⟩ := hst
      exact htrans _ _ _ ih (hR _ a _ (reach_invariant hI hpre hs) hg ha)

/-! ## Runs of a step relation -/

/-- One step of the relation for each label, in order. -/
inductive Trace (step : σ → α → σ → Prop) (s : σ) : List α → σ → Prop
  | nil : Trace step s [] s
  | snoc {t u : σ} {as : List α} {a : α} :
      Trace step s as t → step t a u → Trace step s (as ++ [a]) u

/-- **SIMULATION RULE**: where every guarded step of the one system is matched by a step
    of the other with the same label, every guarded run is matched by a run. -/
theorem Trace.simulated {τ : Type} {step : σ → α → σ → Prop} {step' : τ → α → τ → Prop}
    {guard : α → Prop} {R : σ → τ → Prop}
    (hsim : ∀ s t a s', guard a → R s t → step s a s' → ∃ t', step' t a t' ∧ R s' t')
    {as : List α} {s s' : σ} {t : τ} (h : Trace step s as s') (hguard : ∀ a ∈ as, guard a)
    (hR : R s t) : ∃ t', Trace step' t as t' ∧ R s' t' := by
  induction h with
  | nil => exact ⟨t, .nil, hR⟩
  | snoc _ hstep ih =>
      obtain ⟨hpre, hlast⟩ := List.forall_mem_append.mp hguard
      obtain ⟨u, hu, hRu⟩ := ih hpre
      obtain ⟨t', ht', hR'⟩ := hsim _ u _ _ (hlast _ (List.mem_singleton_self _)) hRu hstep
      exact ⟨t', hu.snoc ht', hR'⟩

/-- What holds of the labels so far and the state is kept by a run if every guarded step
    keeps it. -/
theorem Trace.invariant {step : σ → α → σ → Prop} {guard : α → Prop} {I : List α → σ → Prop}
    (hstep : ∀ as s a t, guard a → I as s → step s a t → I (as ++ [a]) t)
    {as : List α} {s t : σ} (h : Trace step s as t) (hguard : ∀ a ∈ as, guard a)
    (hs : I [] s) : I as t := by
  induction h with
  | nil => exact hs
  | snoc _ hlast ih =>
      obtain ⟨hpre, hguardLast⟩ := List.forall_mem_append.mp hguard
      exact hstep _ _ _ _ (hguardLast _ (List.mem_singleton_self _)) (ih hpre) hlast

/-- A list of labels that a function executes is a run of any relation the function keeps
    to. -/
theorem trace_of_foldlM {step : σ → α → σ → Prop} {next : σ → α → Option σ}
    (hnext : ∀ s a t, next s a = some t → step s a t) (as : List α) {s t : σ}
    (h : as.foldlM next s = some t) : Trace step s as t := by
  induction as using List.reverseRecOn generalizing t with
  | nil =>
      obtain rfl := Option.some.inj h
      exact .nil
  | append_singleton as a ih =>
      rw [List.foldlM_append] at h
      obtain ⟨u, hu, hlast⟩ := Option.bind_eq_some_iff.mp h
      obtain ⟨v, hv, hend⟩ := Option.bind_eq_some_iff.mp hlast
      obtain rfl := Option.some.inj hend
      exact (ih hu).snoc (hnext u a v hv)

/-! ## Executing a list of labels -/

/-- Execute the labels in order, checking the guard before each step. -/
def runIf (step : σ → α → Option σ) (guard : σ → α → Prop)
    [∀ s a, Decidable (guard s a)] : σ → List α → Option σ
  | s, [] => some s
  | s, a :: as =>
      if guard s a then (step s a).bind fun t => runIf step guard t as else none

/-- A list of labels that executes is a guarded run. -/
theorem reach_of_runIf [∀ s a, Decidable (guard s a)] :
    ∀ (as : List α) (s : σ), runIf step guard s as = some t →
      Reach step guard s t := by
  intro as
  induction as with
  | nil =>
      intro s h
      obtain rfl := Option.some.inj h
      exact reach_refl s
  | cons a as ih =>
      intro s h
      rw [runIf] at h
      by_cases hg : guard s a
      · rw [if_pos hg] at h
        obtain ⟨u, hu, hrest⟩ := Option.bind_eq_some_iff.mp h
        exact (reach_step hg hu).trans (ih u hrest)
      · rw [if_neg hg] at h
        exact nomatch h

/-- A list of labels that executes to a state with a checked property. -/
theorem reach_of_check (s : σ) (step : σ → α → Option σ) (guard : σ → α → Prop)
    [∀ s a, Decidable (guard s a)] (as : List α) (P : σ → Bool)
    (h : (runIf step guard s as).any P = true) :
    ∃ t, Reach step guard s t ∧ P t = true := by
  cases hr : runIf step guard s as with
  | none =>
      rw [hr] at h
      exact nomatch h
  | some t =>
      rw [hr] at h
      exact ⟨t, reach_of_runIf as s hr, h⟩

/-- Two lists of labels, one executed after the other. -/
theorem reach_reach_of_check (s : σ) (step : σ → α → Option σ) (guard : σ → α → Prop)
    [∀ s a, Decidable (guard s a)] (as bs : List α) (P Q : σ → Bool)
    (h : (runIf step guard s as).any
      (fun t => P t && (runIf step guard t bs).any Q) = true) :
    ∃ t u, Reach step guard s t ∧ P t = true ∧ Reach step guard t u ∧ Q u = true := by
  obtain ⟨t, ht, hcheck⟩ := reach_of_check s step guard as _ h
  obtain ⟨hP, hrest⟩ := Bool.and_eq_true _ _ |>.mp hcheck
  obtain ⟨u, hu, hQ⟩ := reach_of_check t step guard bs Q hrest
  exact ⟨t, u, ht, hP, hu, hQ⟩

end LabelledRun
