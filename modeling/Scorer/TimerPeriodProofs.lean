import Mathlib
import Scorer.ProbingLoopProofs

/-! # The periods of the timers

    The tasks that `start_ldk` spawns tick at intervals that the configuration gives,
    in seconds, or in hours for rapid gossip sync.  `tokio::time::interval` panics on
    a zero period and the build aborts on a panic.

    * `Interval`: a timer that could be made, with its period;
    * `startTimers`: the calls of `interval` in each task, `none` for an abort;
    * `timers_valid_iff`: after validation every started task has the timers that are
      configured, exactly when the hours of the sync do not overflow as seconds. -/

namespace TimerPeriod

open SectionDefault ProbingLoop

/-! ## Timers -/

/-- `tokio::time::interval`, which panics on a period of zero. -/
structure Interval where
  period  : UInt64
  nonzero : period ≠ 0

/-- `tokio::time::interval`. -/
def interval (period : UInt64) : Option Interval :=
  if h : period = 0 then none else some ⟨period, h⟩

/-- `rapid_gossip_sync_interval_hours * 3600`: an overflow panics where the build
    checks for it, and wraps where it does not. -/
def rapidSyncSecs (overflowChecks : Bool) (intervalHours : UInt64) : Option UInt64 :=
  if overflowChecks && 2 ^ 64 ≤ intervalHours.toNat * 3600 then none
  else some (intervalHours * 3600)

variable {σ : Type} (overflowChecks : Bool)

/-- The timers that a task makes before its loop. -/
def startTimers : BackgroundTask σ → Option (List Interval)
  | .reconnectPeers => (interval 1).map fun timer => [timer]
  | .dnsBootstrap config => (interval config.intervalSecs).map fun timer => [timer]
  | .announceNode _ _ => (interval 3600).map fun timer => [timer]
  | .probing config =>
      if spawnsLoop config then (interval config.intervalSec).map fun timer => [timer]
      else some []
  | .rapidGossipSync _ intervalHours =>
      ((rapidSyncSecs overflowChecks intervalHours).bind interval).map fun timer => [timer]
  | .listen _ | .pollBlocks | .processEvents | .migrateSpendableOutputs
  | .pollForUserInput => some []

/-- The periods that a task should have, in seconds. -/
def configuredSecs : BackgroundTask σ → List Nat
  | .reconnectPeers => [1]
  | .dnsBootstrap config => [config.intervalSecs.toNat]
  | .announceNode _ _ => [3600]
  | .probing config => if spawnsLoop config then [config.intervalSec.toNat] else []
  | .rapidGossipSync _ intervalHours => [intervalHours.toNat * 3600]
  | .listen _ | .pollBlocks | .processEvents | .migrateSpendableOutputs
  | .pollForUserInput => []

/-- The task makes its timers, with the configured periods. -/
def TimersValid (task : BackgroundTask σ) : Prop :=
  ∃ timers, startTimers overflowChecks task = some timers ∧
    timers.map (fun timer => timer.period.toNat) = configuredSecs task

/-! ## One task -/

variable {overflowChecks}

/-- Any other period makes a timer. -/
theorem interval_some {period : UInt64} (h : period ≠ 0) :
    interval period = some ⟨period, h⟩ := dif_neg h

theorem interval_eq_some {period : UInt64} {timer : Interval}
    (h : interval period = some timer) : timer.period = period := by
  rw [interval] at h
  split at h
  · exact nomatch h
  · obtain rfl := Option.some.inj h
    rfl

/-- The product does not overflow, or it is not what was configured. -/
theorem rapidSync_valid_iff {url : Option String} {intervalHours : UInt64}
    (hne : intervalHours ≠ 0) :
    TimersValid overflowChecks (.rapidGossipSync url intervalHours : BackgroundTask σ) ↔
      intervalHours.toNat * 3600 < 2 ^ 64 := by
  have hmul : (intervalHours * 3600).toNat = intervalHours.toNat * 3600 % 2 ^ 64 :=
    UInt64.toNat_mul _ _
  constructor
  · rintro ⟨timers, hstart, hperiods⟩
    by_contra hover
    obtain ⟨timer, htimer, rfl⟩ := Option.map_eq_some_iff.mp hstart
    obtain ⟨secs, hsecs, hinterval⟩ := Option.bind_eq_some_iff.mp htimer
    rw [rapidSyncSecs] at hsecs
    split at hsecs
    · exact nomatch hsecs
    · -- the product has wrapped, and is smaller
      obtain rfl := Option.some.inj hsecs
      have hperiod : timer.period.toNat = intervalHours.toNat * 3600 :=
        (List.cons.inj hperiods).1
      rw [interval_eq_some hinterval, hmul] at hperiod
      have hlt := Nat.mod_lt (intervalHours.toNat * 3600) (show 2 ^ 64 > 0 by norm_num)
      omega
  · intro hfits
    have hpos : intervalHours.toNat ≠ 0 := fun h => hne (UInt64.toNat_inj.mp h)
    have hmul' : (intervalHours * 3600).toNat = intervalHours.toNat * 3600 := by
      rw [hmul, Nat.mod_eq_of_lt hfits]
    have hsecs : intervalHours * 3600 ≠ 0 := by
      intro h
      rw [h] at hmul'
      have hzero : (0 : UInt64).toNat = 0 := rfl
      omega
    refine ⟨[⟨intervalHours * 3600, hsecs⟩], ?_, ?_⟩
    · have hnot : ¬ (overflowChecks && 2 ^ 64 ≤ intervalHours.toNat * 3600) = true := by
        simp only [Bool.and_eq_true, decide_eq_true_eq]
        omega
      show ((rapidSyncSecs overflowChecks intervalHours).bind interval).map _ = _
      rw [rapidSyncSecs, if_neg hnot, Option.bind_some, interval_some hsecs]
      rfl
    · exact congrArg (· :: []) hmul'

/-- A task with one timer of a nonzero period. -/
theorem valid_of_nonzero {task : BackgroundTask σ} {period : UInt64} (h : period ≠ 0)
    (hstart : startTimers overflowChecks task = (interval period).map fun timer => [timer])
    (hsecs : configuredSecs task = [period.toNat]) : TimersValid overflowChecks task := by
  refine ⟨[⟨period, h⟩], ?_, hsecs.symm⟩
  rw [hstart, interval_some h]
  rfl

/-! ## All tasks -/

variable {E : Platform σ} {config : NodeConfig}

/-- Validation keeps the hours between two syncs from being zero. -/
theorem rapidHours_nonzero (h : rapidGossipSyncError config.rapidGossipSync = none)
    (henabled : config.rapidGossipSync.enabled = true) :
    config.rapidGossipSync.intervalHours ≠ 0 := by
  intro hzero
  rw [rapidGossipSyncError, henabled, hzero] at h
  exact nomatch h

/-- It does so for the seconds between two rounds of probes. -/
theorem probingSecs_nonzero {probeConfig : ProbingConfig}
    (h : probingError (some probeConfig) = none) : probeConfig.intervalSec ≠ 0 := by
  intro hzero
  rw [probingError, hzero] at h
  exact nomatch h

/-- And for those between two rounds of the bootstrapper. -/
theorem dnsSecs_nonzero {dnsConfig : DnsBootstrapConfig}
    (h : dnsBootstrapError (some dnsConfig) = none) (henabled : dnsConfig.enabled = true) :
    dnsConfig.intervalSecs ≠ 0 := by
  intro hzero
  rw [dnsBootstrapError, if_pos henabled, hzero] at h
  split at h
  · exact nomatch h
  · split at h
    · exact nomatch h
    · exact nomatch h

/-- The bootstrap task has a timer. -/
theorem dns_task_valid {dnsConfig : DnsBootstrapConfig}
    (h : dnsBootstrapError (some dnsConfig) = none) (henabled : dnsConfig.enabled = true) :
    TimersValid overflowChecks (.dnsBootstrap dnsConfig : BackgroundTask σ) :=
  valid_of_nonzero (dnsSecs_nonzero h henabled) rfl rfl

theorem probing_task_valid {probeConfig : ProbingConfig}
    (h : probingError (some probeConfig) = none) :
    TimersValid overflowChecks (.probing probeConfig : BackgroundTask σ) := by
  by_cases hspawns : spawnsLoop probeConfig = true
  · exact valid_of_nonzero (probingSecs_nonzero h) (if_pos hspawns) (if_pos hspawns)
  · exact ⟨[], if_neg hspawns, (if_neg hspawns).symm⟩

/-- The started tasks but the sync have their timers. -/
theorem other_tasks_valid (h : validate E config = none) {ldkStorageDirPath : String}
    {task : BackgroundTask σ}
    (htask : task ∈ startedTasks E (intoLdkUserInfo E config ldkStorageDirPath)) :
    TimersValid overflowChecks task ∨
      config.rapidGossipSync.enabled = true ∧
        E.rapidSyncReady config.rapidGossipSync.url = true ∧
        task = .rapidGossipSync config.rapidGossipSync.url
          config.rapidGossipSync.intervalHours := by
  obtain ⟨-, -, -, hprobing, hdns⟩ := validate_none.mp h
  simp only [startedTasks, List.mem_append] at htask
  rcases htask with ((((htask | htask) | htask) | htask) | htask) | htask
  · left
    simp only [List.mem_cons, List.not_mem_nil, or_false] at htask
    rcases htask with rfl | rfl | rfl | rfl
    · exact ⟨[], rfl, rfl⟩
    · exact ⟨[], rfl, rfl⟩
    · exact ⟨[], rfl, rfl⟩
    · exact valid_of_nonzero (show (1 : UInt64) ≠ 0 by decide) rfl rfl
  · left
    cases hconfig : config.dnsBootstrap with
    | none =>
        simp only [intoLdkUserInfo, hconfig] at htask
        exact nomatch htask
    | some dnsConfig =>
        simp only [intoLdkUserInfo, hconfig] at htask
        rw [hconfig] at hdns
        split at htask
        · rename_i hready
          obtain rfl := List.mem_singleton.mp htask
          exact dns_task_valid hdns (Bool.and_eq_true _ _ |>.mp hready).1
        · exact nomatch htask
  · left
    simp only [List.mem_cons, List.not_mem_nil, or_false] at htask
    rcases htask with rfl | rfl
    · exact valid_of_nonzero (show (3600 : UInt64) ≠ 0 by decide) rfl rfl
    · exact ⟨[], rfl, rfl⟩
  · left
    cases hconfig : config.probing with
    | none =>
        simp only [intoLdkUserInfo, hconfig] at htask
        exact nomatch htask
    | some probeConfig =>
        simp only [intoLdkUserInfo, hconfig] at htask
        rw [hconfig] at hprobing
        obtain rfl := List.mem_singleton.mp htask
        exact probing_task_valid hprobing
  · right
    split at htask
    · rename_i hready
      obtain ⟨henabled, hsync⟩ := Bool.and_eq_true _ _ |>.mp hready
      exact ⟨henabled, hsync, List.mem_singleton.mp htask⟩
    · exact nomatch htask
  · left
    obtain rfl := List.mem_singleton.mp htask
    exact ⟨[], rfl, rfl⟩

/-- The sync is started when it is enabled and its manager could be made. -/
theorem rapidSync_started (henabled : config.rapidGossipSync.enabled = true)
    (hready : E.rapidSyncReady config.rapidGossipSync.url = true) (ldkStorageDirPath : String) :
    .rapidGossipSync config.rapidGossipSync.url config.rapidGossipSync.intervalHours ∈
      startedTasks E (intoLdkUserInfo E config ldkStorageDirPath) := by
  have hboth : (config.rapidGossipSync.enabled &&
      E.rapidSyncReady config.rapidGossipSync.url) = true := by
    rw [henabled, hready]
    rfl
  simp only [startedTasks, intoLdkUserInfo, hboth, if_true, List.mem_append, List.mem_singleton,
    or_true, true_or]

/-- **WHEN ACCEPTED INTERVALS MAKE VALID TIMERS**: for every accepted configuration and
    either build, exactly when the sync is not started, or its hours are less than
    2^64 seconds. -/
theorem timers_valid_iff (h : validate E config = none) (overflowChecks : Bool)
    (ldkStorageDirPath : String) :
    (∀ task ∈ startedTasks E (intoLdkUserInfo E config ldkStorageDirPath),
        TimersValid overflowChecks task) ↔
      (config.rapidGossipSync.enabled = true →
        E.rapidSyncReady config.rapidGossipSync.url = true →
        config.rapidGossipSync.intervalHours.toNat * 3600 < 2 ^ 64) := by
  have hrapid := (validate_none.mp h).2.2.1
  constructor
  · intro hvalid henabled hready
    exact (rapidSync_valid_iff (rapidHours_nonzero hrapid henabled)).mp
      (hvalid _ (rapidSync_started henabled hready ldkStorageDirPath))
  · intro hfits task htask
    rcases other_tasks_valid h htask with hvalid | ⟨henabled, hready, rfl⟩
    · exact hvalid
    · exact (rapidSync_valid_iff (rapidHours_nonzero hrapid henabled)).mpr
        (hfits henabled hready)

/-- A configuration with the sync every so many hours. -/
private def syncEvery (intervalHours : UInt64) : NodeConfig :=
  ⟨⟨"127.0.0.1", 8332, "user", "pass"⟩, "testnet", ⟨9735, none, []⟩,
    ⟨true, none, intervalHours⟩, none, none⟩

/-- Syncing every six hours. -/
theorem timers_valid_iff_sixHours :
    (∀ task ∈ startedTasks readyPlatform (intoLdkUserInfo readyPlatform (syncEvery 6) ".ldk"),
        TimersValid false task) ↔
      ((syncEvery 6).rapidGossipSync.enabled = true →
        readyPlatform.rapidSyncReady (syncEvery 6).rapidGossipSync.url = true →
        (syncEvery 6).rapidGossipSync.intervalHours.toNat * 3600 < 2 ^ 64) :=
  timers_valid_iff rfl false ".ldk"

/-- 2^60 hours, which are 0 seconds modulo 2^64: neither build has the timer. -/
theorem accepted_hours_overflow :
    validate readyPlatform (syncEvery 1152921504606846976) = none ∧
      ∃ task ∈ startedTasks readyPlatform
          (intoLdkUserInfo readyPlatform (syncEvery 1152921504606846976) ".ldk"),
        ¬ TimersValid false task ∧ ¬ TimersValid true task := by
  refine ⟨rfl, _, rapidSync_started rfl rfl ".ldk", fun hvalid => ?_, fun hvalid => ?_⟩
  · exact absurd ((rapidSync_valid_iff (by decide)).mp hvalid) (by decide)
  · exact absurd ((rapidSync_valid_iff (by decide)).mp hvalid) (by decide)

end TimerPeriod
