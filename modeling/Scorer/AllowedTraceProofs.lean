import Mathlib.Data.List.Infix

/-! # Traces in which each effect is allowed by the earlier ones

    A program that is not given by a state but by what it does is a list of effects.
    `ok h e` says that `e` may follow the history `h`; a trace keeps to it when each
    of its effects may follow what comes before.

    * `allowed_append`, `allowed_take`: parts of such a trace, one after another, and
      the trace of a program that is killed on the way;
    * `allowed_split`: the law at each single effect;
    * `history_invariant`: what each allowed effect keeps, every history has. -/

namespace AllowedTrace

variable {ε : Type} {ok : List ε → ε → Prop}

/-- Each effect of the trace is allowed after `h` and the effects before it. -/
def Allowed (ok : List ε → ε → Prop) : (h : List ε) → (trace : List ε) → Prop
  | _, [] => True
  | h, e :: rest => ok h e ∧ Allowed ok (h ++ [e]) rest

/-- A trace in two parts: the second has the first in its history. -/
theorem allowed_append (h t u : List ε) :
    Allowed ok h (t ++ u) ↔ Allowed ok h t ∧ Allowed ok (h ++ t) u := by
  induction t generalizing h with
  | nil => simp [Allowed]
  | cons e rest ih =>
      rw [List.cons_append, Allowed, Allowed, ih, and_assoc, List.append_assoc]
      rfl

/-- What was done of a trace when the program was killed. -/
theorem allowed_take {h t : List ε} (n : Nat) (ht : Allowed ok h t) :
    Allowed ok h (t.take n) := by
  rw [← List.take_append_drop n t, allowed_append] at ht
  exact ht.1

/-- The law at one effect of the trace. -/
theorem allowed_split {h t before after : List ε} {e : ε} (ht : Allowed ok h t)
    (hsplit : t = before ++ e :: after) : ok (h ++ before) e := by
  rw [hsplit, allowed_append] at ht
  exact ht.2.1

/-- Effects that are allowed anywhere. -/
theorem allowed_of_forall {h t : List ε} (hall : ∀ e ∈ t, ∀ h', ok h' e) :
    Allowed ok h t := by
  induction t generalizing h with
  | nil => exact trivial
  | cons e rest ih =>
      exact ⟨hall e List.mem_cons_self h, ih fun d hd => hall d (List.mem_cons_of_mem _ hd)⟩

/-- **HISTORY INVARIANT**: what each allowed effect keeps, every history has. -/
theorem history_invariant {I : List ε → Prop}
    (hstep : ∀ h e, I h → ok h e → I (h ++ [e])) {h t : List ε} (hstart : I h)
    (ht : Allowed ok h t) : I (h ++ t) := by
  induction t generalizing h with
  | nil => rwa [List.append_nil]
  | cons e rest ih =>
      have hrest := ih (hstep h e hstart ht.1) ht.2
      rwa [List.append_assoc] at hrest

end AllowedTrace
