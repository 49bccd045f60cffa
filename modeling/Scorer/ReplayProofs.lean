import Mathlib.Data.List.Induction

/-! # Replaying actions

    A log of actions may be replayed from any point when its end was lost.  The
    replay changes nothing when an action that comes again makes up for what came
    between, which is the `later` law below: of two occurrences of one action the
    second alone decides.

    * `run_twice`: a list of such actions, run again, changes nothing;
    * `run_suffix`: nor does running a suffix again;
    * `run_view`: what a run does to one part of the state, when each action acts on
      the part or leaves it. -/

namespace Replay

variable {σ τ ε κ : Type}

/-- Run the actions in order. -/
def run (act : ε → σ → σ) (es : List ε) (st : σ) : σ :=
  es.foldl (fun st e => act e st) st

section Run

variable (act : ε → σ → σ)

@[simp] theorem run_cons (e : ε) (es : List ε) (st : σ) :
    run act (e :: es) st = run act es (act e st) := rfl

theorem run_append (es fs : List ε) (st : σ) :
    run act (es ++ fs) st = run act fs (run act es st) :=
  List.foldl_append

end Run

/-- Each action brings the state into `I`, where the last occurrence of an action
    decides. -/
structure Overriding (act : ε → σ → σ) (I : σ → Prop) : Prop where
  enters : ∀ e st, I (act e st)
  again : ∀ e st, act e (act e st) = act e st
  later : ∀ e f st, I st → act e (act f (act e st)) = act e (act f st)

variable {act : ε → σ → σ} {I : σ → Prop}

/-- Inside the invariant events stay inside. -/
theorem run_keeps (h : Overriding act I) (es : List ε) {st : σ} (hst : I st) :
    I (run act es st) := by
  induction es generalizing st with
  | nil => exact hst
  | cons e es ih => exact ih (h.enters e st)

theorem run_enters (h : Overriding act I) {es : List ε} (hne : es ≠ []) (st : σ) :
    I (run act es st) := by
  cases es with
  | nil => exact absurd rfl hne
  | cons e es => exact run_keeps h es (h.enters e st)

/-- An action may be left out when it comes again, whatever is between. -/
theorem run_later (h : Overriding act I) (e : ε) (es : List ε) {st : σ} (hst : I st) :
    act e (run act es (act e st)) = act e (run act es st) := by
  induction es generalizing st with
  | nil => exact h.again e st
  | cons f es ih =>
      calc act e (run act es (act f (act e st)))
          = act e (run act es (act e (act f (act e st)))) := (ih (h.enters f _)).symm
        _ = act e (run act es (act e (act f st))) := by rw [h.later e f st hst]
        _ = act e (run act es (act f st)) := ih (h.enters f st)

private theorem run_twice_inside (h : Overriding act I) (es : List ε) {st : σ} (hst : I st) :
    run act es (run act es st) = run act es st := by
  induction es using List.reverseRecOn with
  | nil => rfl
  | append_singleton es e ih =>
      rw [run_append, run_append]
      show act e (run act es (act e (run act es st))) = act e (run act es st)
      rw [run_later h e es (run_keeps h es hst), ih]

/-- **RUN TWICE**: a list of overriding actions changes nothing the second time. -/
theorem run_twice (h : Overriding act I) (es : List ε) (st : σ) :
    run act es (run act es st) = run act es st := by
  cases es with
  | nil => rfl
  | cons e es =>
      -- the first action may as well have come before, so the run starts inside `I`
      have hst : run act (e :: es) st = run act (e :: es) (act e st) := by
        rw [run_cons, run_cons, h.again]
      rw [hst]
      exact run_twice_inside h (e :: es) (h.enters e st)

/-- **REPLAY**: repeating the last events changes nothing. -/
theorem run_suffix (h : Overriding act I) {es fs : List ε} (hs : fs <:+ es) (st : σ) :
    run act fs (run act es st) = run act es st := by
  obtain ⟨before, rfl⟩ := hs
  rw [run_append]
  exact run_twice h fs (run act before st)

/-- A part of the state, on which an action with a `key` acts by `actAt` and which
    the other actions leave. -/
theorem run_view (view : σ → τ) {key : ε → Option κ} {actAt : κ → τ → τ}
    (hview : ∀ e st, view (act e st) = ((key e).map fun k => actAt k (view st)).getD (view st))
    (es : List ε) (st : σ) :
    view (run act es st) = run actAt (es.filterMap key) (view st) := by
  induction es generalizing st with
  | nil => rfl
  | cons e es ih =>
      rw [run_cons, ih, hview]
      cases hk : key e with
      | none => rw [List.filterMap_cons_none hk]; rfl
      | some k => rw [List.filterMap_cons_some hk]; rfl

end Replay
