import Mathlib.Algebra.Group.Nat.Units
import Mathlib.Data.List.Induction

/-! # Waiting twice as long after each failure

    The wait after a failure doubles with each further one, up to a cap, and a success
    takes it back to the first.

    * `wait_eq`: the wait in closed form;
    * `foldl_after`: after any outcomes the wait depends on the failures at the end only;
    * `StopsAt`: attempts up to a limit, to the first success or to no success at all. -/

namespace Backoff

/-- The first wait and the longest one. -/
structure Policy where
  first : Nat
  cap   : Nat
  first_le : first ≤ cap

namespace Policy

variable (p : Policy)

/-- The wait after a further failure. -/
def next (wait : Nat) : Nat := min (wait * 2) p.cap

/-- The wait after a failure that `n` others came right before. -/
def wait : Nat → Nat
  | 0 => p.first
  | n + 1 => p.next (wait n)

theorem wait_zero : p.wait 0 = p.first := rfl

theorem wait_succ (n : Nat) : p.wait (n + 1) = p.next (p.wait n) := rfl

/-- **CLOSED FORM**: the wait doubles until the cap. -/
theorem wait_eq (n : Nat) : p.wait n = min (p.first * 2 ^ n) p.cap := by
  induction n with
  | zero => rw [wait_zero, Nat.pow_zero, Nat.mul_one, Nat.min_eq_left p.first_le]
  | succ n ih =>
      rw [wait_succ, next, ih, Nat.pow_succ, ← Nat.mul_assoc]
      omega

/-- The wait after an outcome. -/
def after (wait : Nat) (succeeded : Bool) : Nat :=
  if succeeded then p.first else p.next wait

/-- The failures at the end. -/
def trailing (outcomes : List Bool) : Nat :=
  (outcomes.reverse.takeWhile fun succeeded => !succeeded).length

/-- A success ends a row of failures, and a failure lengthens it. -/
theorem trailing_concat (outcomes : List Bool) (succeeded : Bool) :
    trailing (outcomes ++ [succeeded]) = if succeeded then 0 else trailing outcomes + 1 := by
  rw [trailing, List.reverse_concat]
  cases succeeded with
  | true => rfl
  | false => rfl

/-- **RESET**: only the failures since the last success count. -/
theorem foldl_after (outcomes : List Bool) :
    outcomes.foldl p.after p.first = p.wait (trailing outcomes) := by
  induction outcomes using List.reverseRecOn with
  | nil => rfl
  | append_singleton outcomes succeeded ih =>
      rw [List.foldl_append, ih, trailing_concat, List.foldl_cons, List.foldl_nil, after]
      cases succeeded with
      | true => rfl
      | false => rfl

end Policy

/-! ## Attempts up to a limit -/

/-- Attempt `last` is the first that succeeds, or the last of `limit` that all fail. -/
structure StopsAt {α : Type} (attempt : Nat → Option α) (limit last : Nat) : Prop where
  lt : last < limit
  failed : ∀ i < last, attempt i = none
  stops : attempt last = none → last + 1 = limit

end Backoff
