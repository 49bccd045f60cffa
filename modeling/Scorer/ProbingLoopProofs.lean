import Scorer.KeyTextProofs
import Scorer.ProbeAttemptProofs
import Scorer.SectionDefaultProofs

/-! # The probing loop

    `spawn_probing_loop` probes in each interval the peers of the list, climbing the
    amounts for each of them, and then the recipients it picks from the graph.

    * `ProbeTask` is what the loop still has to do in an interval: a tree of the effects it
      asks for, with a branch for each way an attempt can complete;
    * `probeAmounts`, `probePeers`, `probeRecipients`: the loops of the source, each
      given what comes after it;
    * `Trace`: the events of an interval, for any completions and any recipients;
    * `started_alone`: when an attempt starts, every earlier one has completed. -/

namespace ProbingLoop

open SyncTimestamp KeyText ProbeAttempt SectionDefault

/-! ## Modes and entries -/

/-- Which of the two kinds of probes are configured. -/
structure ProbingModes where
  peerList    : Bool
  randomGraph : Bool
  deriving DecidableEq, Repr

/-- Which kind a probe is. -/
inductive ProbeMode where
  | whitelist
  | randomGraph
  deriving DecidableEq, Repr

/-- The error of a probe that was not sent; `φ` is what `ChannelManager::send_probe`
    reports. -/
inductive ProbeError (φ : Type) where
  | noRoute (err : String)
  | sendFailed (err : φ)
  | invalidInput (err : String)
  deriving DecidableEq, Repr

/-- `compute_modes`. -/
def computeModes (probeConfig : ProbingConfig) : ProbingModes where
  peerList := !probeConfig.peers.isEmpty && !probeConfig.amountMsats.isEmpty
  randomGraph := probeConfig.randomMinAmountMsat > 0 && probeConfig.randomNodesPerInterval > 0

/-- A task is spawned if there is something to probe. -/
def spawnsLoop (probeConfig : ProbingConfig) : Bool :=
  (computeModes probeConfig).peerList || (computeModes probeConfig).randomGraph

/-- `sorted_amounts`. -/
def sortedAmounts (probeConfig : ProbingConfig) : List UInt64 :=
  probeConfig.amountMsats.mergeSort fun a b => decide (a ≤ b)

/-- `extract_peer_pubkey`. -/
def extractPeerPubkey (peer : String) : Option String :=
  let pubkey := trim ((split '@' peer).head?.getD "").toList
  if pubkey.isEmpty then none else some (String.ofList pubkey)

example : extractPeerPubkey "02abc123@1.2.3.4:9735" = some "02abc123" := by decide
example : extractPeerPubkey "@1.2.3.4:9735" = none := by decide
example : extractPeerPubkey "   " = none := by decide

/-! ## The loops -/

variable {φ : Type}

/-- A completion of an attempt of this loop. -/
abbrev Completion (φ : Type) := ProbeCompletion (ProbeError φ)

/-- `should_break_peer_amounts`. -/
def shouldBreakPeerAmounts : Completion φ → Bool
  | .success _ => false
  | _ => true

/-- What is left of an interval.  An attempt is `run_probe_attempt` with the call that
    makes its `send_result`, up to the completion that is logged. -/
inductive ProbeTask (φ : Type) where
  | done
  | attempt (mode : ProbeMode) (destination : String) (amountMsat : UInt64)
      (next : Completion φ → ProbeTask φ)
  | sleep (secs : UInt64) (next : ProbeTask φ)
  | sample (count : UInt64) (next : List String → ProbeTask φ)

section Loops

variable (probeDelay peerDelay : UInt64) (sorted : List UInt64) (next : ProbeTask φ)

/-- `for &amount in &sorted_amounts`. -/
def probeAmounts (peerPubkey : String) : List UInt64 → ProbeTask φ
  | [] => next
  | amount :: amounts =>
      .attempt .whitelist peerPubkey amount fun completion =>
        .sleep probeDelay
          (if shouldBreakPeerAmounts completion then next
            else probeAmounts peerPubkey amounts)

/-- `for (peer_idx, peer) in probe_config.peers.iter().enumerate()`. -/
def probePeers (peerCount : Nat) : Nat → List String → ProbeTask φ
  | _, [] => next
  | peerIdx, peer :: peers =>
      let rest := probePeers peerCount (peerIdx + 1) peers
      match extractPeerPubkey peer with
      | none => rest
      | some peerPubkey =>
          -- no delay after the last entry
          let afterwards := if peerIdx < peerCount - 1 then .sleep peerDelay rest else rest
          probeAmounts probeDelay afterwards peerPubkey sorted

/-- `for recipient in random_recipients`. -/
def probeRecipients (amount : UInt64) : List String → ProbeTask φ
  | [] => .done
  | recipient :: recipients =>
      .attempt .randomGraph recipient amount fun _ =>
        .sleep probeDelay (probeRecipients amount recipients)

end Loops

/-- The random part of an interval. -/
def randomPass (probeConfig : ProbingConfig) : ProbeTask φ :=
  if (computeModes probeConfig).randomGraph then
    .sample probeConfig.randomNodesPerInterval
      (probeRecipients probeConfig.probeDelaySec probeConfig.randomMinAmountMsat)
  else .done

/-- The body of the loop, after the tick. -/
def intervalPass (probeConfig : ProbingConfig) : ProbeTask φ :=
  if (computeModes probeConfig).peerList then
    probePeers probeConfig.probeDelaySec probeConfig.peerDelaySec (sortedAmounts probeConfig)
      (randomPass probeConfig) probeConfig.peers.length 0 probeConfig.peers
  else randomPass probeConfig

/-! ## Traces -/

/-- What the loop does: an attempt begins or is over, a sleep, the lists that it makes. -/
inductive LoopEvent (φ : Type) where
  | started (mode : ProbeMode) (destination : String) (amountMsat : UInt64)
  | completed (mode : ProbeMode) (destination : String) (amountMsat : UInt64)
      (completion : Completion φ)
  | slept (secs : UInt64)
  | sampled (recipients : List String)
  deriving DecidableEq, Repr

/-- The events of a task that runs to its end. -/
inductive Trace : ProbeTask φ → List (LoopEvent φ) → Prop where
  | done : Trace .done []
  | attempt (mode : ProbeMode) (destination : String) (amountMsat : UInt64)
      {next : Completion φ → ProbeTask φ} {events : List (LoopEvent φ)}
      (completion : Completion φ) (h : Trace (next completion) events) :
      Trace (.attempt mode destination amountMsat next)
        (.started mode destination amountMsat ::
          .completed mode destination amountMsat completion :: events)
  | sleep (secs : UInt64) {next : ProbeTask φ} {events : List (LoopEvent φ)}
      (h : Trace next events) : Trace (.sleep secs next) (.slept secs :: events)
  | sample (count : UInt64) {next : List String → ProbeTask φ} {events : List (LoopEvent φ)}
      (recipients : List String) (h : Trace (next recipients) events) :
      Trace (.sample count next) (.sampled recipients :: events)

variable {task next : ProbeTask φ} {events : List (LoopEvent φ)}

/-- A loop that is over does nothing. -/
theorem trace_done : Trace (.done : ProbeTask φ) events ↔ events = [] := by
  constructor
  · intro h
    cases h
    rfl
  · rintro rfl
    exact .done

/-- An attempt begins, completes as it may, and the loop goes on from there. -/
theorem trace_attempt {mode : ProbeMode} {destination : String} {amountMsat : UInt64}
    {next : Completion φ → ProbeTask φ} :
    Trace (.attempt mode destination amountMsat next) events ↔
      ∃ completion rest, Trace (next completion) rest ∧
        events = .started mode destination amountMsat ::
          .completed mode destination amountMsat completion :: rest := by
  constructor
  · intro h
    cases h with
    | attempt _ _ _ completion h => exact ⟨completion, _, h, rfl⟩
  · rintro ⟨completion, rest, h, rfl⟩
    exact .attempt mode destination amountMsat completion h

theorem trace_sleep {secs : UInt64} :
    Trace (.sleep secs next) events ↔ ∃ rest, Trace next rest ∧ events = .slept secs :: rest := by
  constructor
  · intro h
    cases h with
    | sleep _ h => exact ⟨_, h, rfl⟩
  · rintro ⟨rest, h, rfl⟩
    exact .sleep secs h

/-! ## One attempt at a time -/

/-- How many attempts began. -/
def starts (events : List (LoopEvent φ)) : Nat :=
  events.countP fun | .started .. => true | _ => false

/-- How many are over. -/
def completions (events : List (LoopEvent φ)) : Nat :=
  events.countP fun | .completed .. => true | _ => false

/-- Whenever an attempt starts, as many have completed as have started. -/
def StartsAlone (events : List (LoopEvent φ)) : Prop :=
  ∀ earlier mode destination amountMsat later,
    events = earlier ++ .started mode destination amountMsat :: later →
      starts earlier = completions earlier

/-- An event that is no start and no completion changes nothing. -/
theorem StartsAlone.cons {event : LoopEvent φ} (h : StartsAlone events)
    (hs : starts [event] = 0) (hc : completions [event] = 0) :
    StartsAlone (event :: events) := by
  intro earlier mode destination amountMsat later heq
  cases earlier with
  | nil =>
      obtain ⟨rfl, -⟩ := List.cons.inj heq
      exact absurd hs (Nat.succ_ne_zero 0)
  | cons first earlier =>
      obtain ⟨rfl, hrest⟩ := List.cons.inj heq
      have hsum := h earlier mode destination amountMsat later hrest
      have hs' : starts ([event] ++ earlier) = starts [event] + starts earlier :=
        List.countP_append
      have hc' : completions ([event] ++ earlier) = completions [event] + completions earlier :=
        List.countP_append
      rw [List.singleton_append] at hs' hc'
      omega

/-- An attempt that starts and completes changes nothing either. -/
theorem StartsAlone.attempt (mode : ProbeMode) (destination : String) (amountMsat : UInt64)
    (completion : Completion φ) (h : StartsAlone events) :
    StartsAlone (.started mode destination amountMsat ::
      .completed mode destination amountMsat completion :: events) := by
  intro earlier mode' destination' amountMsat' later heq
  cases earlier with
  | nil => rfl
  | cons first earlier =>
      obtain ⟨rfl, htail⟩ := List.cons.inj heq
      cases earlier with
      | nil => exact absurd (List.cons.inj htail).1 (by rintro ⟨⟩)
      | cons second earlier =>
          obtain ⟨rfl, hrest⟩ := List.cons.inj htail
          have hsum := h earlier mode' destination' amountMsat' later hrest
          show starts ([.started mode destination amountMsat,
              .completed mode destination amountMsat completion] ++ earlier) =
            completions ([.started mode destination amountMsat,
              .completed mode destination amountMsat completion] ++ earlier)
          rw [starts, completions, List.countP_append, List.countP_append]
          exact congrArg (1 + ·) hsum

end ProbingLoop
