import Scorer.BackoffProofs

/-! # Polling for the best tip

    The task that connects blocks polls for ever.  It sleeps a second after a poll that
    succeeded, and longer after each failed one, and says how long in the log.

    * `pollLoop` is what the task does for the outcomes of its polls;
    * `poll_backs_off`: after any outcomes, the next one is answered by the failures that
      came right before it, and by nothing else. -/

namespace BlockPoll

open Backoff

/-- `BlockSourceErrorKind`; only the log tells them apart. -/
inductive BlockSourceErrorKind where
  | transient
  | persistent
  deriving DecidableEq, Repr

/-- `BlockSourceError`, with its `{:?}`. -/
structure BlockSourceError where
  kind  : BlockSourceErrorKind
  debug : String
  deriving DecidableEq, Repr

/-- What the loop does: a line of the log, or a sleep. -/
inductive Effect where
  | warn (text : String)
  | error (text : String)
  | sleep (secs : Nat)
  deriving DecidableEq, Repr

/-- `retry_delay` at first and `max_retry_delay`, in seconds. -/
def retryDelays : Policy := ⟨1, 30, by decide⟩

/-- The text that both log lines have in common. -/
def retryText (kind : String) (e : BlockSourceError) (retryDelay : Nat) : String :=
  "SPV poll_best_tip " ++ kind ++ " error: " ++ e.debug ++ ". Retrying in " ++
    toString retryDelay ++ "s"

/-- The line of a failed poll. -/
def logLine (e : BlockSourceError) (retryDelay : Nat) : Effect :=
  match e.kind with
  | .transient => .warn (retryText "transient" e retryDelay)
  | .persistent => .error (retryText "persistent" e retryDelay)

/-- One turn of the loop, and `retry_delay` after it. -/
def pollOnce (retryDelay : Nat) : Except BlockSourceError Unit → List Effect × Nat
  | .ok _ => ([.sleep 1], 1)
  | .error e =>
      ([logLine e retryDelay, .sleep retryDelay], min (retryDelay + retryDelay) retryDelays.cap)

/-- The loop, for the outcomes of its polls. -/
def pollLoop (retryDelay : Nat) : List (Except BlockSourceError Unit) → List Effect
  | [] => []
  | outcome :: outcomes =>
      (pollOnce retryDelay outcome).1 ++ pollLoop (pollOnce retryDelay outcome).2 outcomes

/-- Which polls succeeded. -/
def succeeded (outcomes : List (Except BlockSourceError Unit)) : List Bool :=
  outcomes.map fun outcome => outcome.toOption.isSome

/-- The answer to an outcome that `failures` failed polls came right before: the line of
    the log, letter by letter, and the seconds that are slept. -/
def answer (failures : Nat) : Except BlockSourceError Unit → List Effect
  | .ok _ => [.sleep 1]
  | .error ⟨.transient, debug⟩ =>
      [.warn ("SPV poll_best_tip transient error: " ++ debug ++ ". Retrying in " ++
        toString (min (2 ^ failures) 30) ++ "s"), .sleep (min (2 ^ failures) 30)]
  | .error ⟨.persistent, debug⟩ =>
      [.error ("SPV poll_best_tip persistent error: " ++ debug ++ ". Retrying in " ++
        toString (min (2 ^ failures) 30) ++ "s"), .sleep (min (2 ^ failures) 30)]

/-- One turn changes the delay as the policy says. -/
theorem pollOnce_delay (retryDelay : Nat) (outcome : Except BlockSourceError Unit) :
    (pollOnce retryDelay outcome).2 =
      retryDelays.after retryDelay outcome.toOption.isSome := by
  cases outcome with
  | ok _ => rfl
  | error e =>
      show min (retryDelay + retryDelay) retryDelays.cap = min (retryDelay * 2) retryDelays.cap
      rw [Nat.mul_two]

/-- What a text starts with can be joined first. -/
theorem retryText_start {kind start : String}
    (hstart : "SPV poll_best_tip " ++ kind ++ " error: " = start) (e : BlockSourceError)
    (secs : Nat) :
    retryText kind e secs = start ++ e.debug ++ ". Retrying in " ++ toString secs ++ "s" :=
  congrArg (· ++ e.debug ++ ". Retrying in " ++ toString secs ++ "s") hstart

/-- The line that the loop puts together is the one of `answer`, for either kind. -/
theorem answer_error (failures : Nat) (e : BlockSourceError) :
    answer failures (.error e) =
      [logLine e (min (2 ^ failures) 30), .sleep (min (2 ^ failures) 30)] := by
  obtain ⟨kind, debug⟩ := e
  cases kind with
  | transient =>
      have htext : "SPV poll_best_tip " ++ "transient" ++ " error: " =
          "SPV poll_best_tip transient error: " := by simp only [String.reduceAppend]
      rw [answer, logLine, retryText_start htext]
  | persistent =>
      have htext : "SPV poll_best_tip " ++ "persistent" ++ " error: " =
          "SPV poll_best_tip persistent error: " := by simp only [String.reduceAppend]
      rw [answer, logLine, retryText_start htext]

/-- A poll more: what the polls before it did, and its own turn with the delay they left. -/
theorem pollLoop_concat (retryDelay : Nat) (past : List (Except BlockSourceError Unit))
    (outcome : Except BlockSourceError Unit) :
    pollLoop retryDelay (past ++ [outcome]) = pollLoop retryDelay past ++
      (pollOnce ((succeeded past).foldl retryDelays.after retryDelay) outcome).1 := by
  induction past generalizing retryDelay with
  | nil => exact List.append_nil _
  | cons first past ih =>
      have hfold : (succeeded (first :: past)).foldl retryDelays.after retryDelay =
          (succeeded past).foldl retryDelays.after (pollOnce retryDelay first).2 := by
        rw [pollOnce_delay]
        rfl
      rw [List.cons_append, pollLoop, pollLoop, ih, List.append_assoc, hfold]

/-- **POLLING BACKS OFF**: whatever the polls came to, the next one is followed by a
    second if it succeeds, and by `2 ^ k` seconds, 30 at most, if it fails and `k` failed
    ones came right before it; the log states the seconds that are slept. -/
theorem poll_backs_off (past : List (Except BlockSourceError Unit))
    (outcome : Except BlockSourceError Unit) :
    pollLoop 1 (past ++ [outcome]) =
      pollLoop 1 past ++ answer (Policy.trailing (succeeded past)) outcome := by
  have hdelay : (succeeded past).foldl retryDelays.after 1 =
      min (2 ^ Policy.trailing (succeeded past)) 30 := by
    have hwait := (retryDelays.foldl_after (succeeded past)).trans (retryDelays.wait_eq _)
    rwa [show retryDelays.first = 1 from rfl, Nat.one_mul] at hwait
  rw [pollLoop_concat, hdelay]
  cases outcome with
  | ok _ => rfl
  | error e => rw [answer_error]; rfl

end BlockPoll
