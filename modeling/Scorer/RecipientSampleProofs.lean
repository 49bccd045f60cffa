import Scorer.ReservoirSampleProofs
import Scorer.SectionDefaultProofs

/-! # Selecting the random recipients

    Each interval the probing task converts `random_nodes_per_interval` to a `usize`
    and samples so many of the nodes of the graph.  The vector of the sample is
    allocated for the requested count at once, however few nodes there are, and
    validation puts no bound on the count.

    * `randomRecipients` follows the source, on a machine whose pointers have
      `pointerWidth` bits, with any `Allocator`: it refuses requests over `isize::MAX`
      bytes and may refuse smaller ones;
    * `selection_completes_iff`: the selection returns, and returns what it should,
      exactly when the allocator grants the vector for the requested count. -/

namespace RecipientSample

open ReservoirSample SectionDefault

variable {N P R : Type}

/-! ## The selection -/

/-- `usize::MAX`. -/
def usizeMax (pointerWidth : Nat) : Nat := 2 ^ pointerWidth - 1

/-- `isize::MAX`, the most that a `Vec` may take in bytes. -/
def isizeMax (pointerWidth : Nat) : Nat := 2 ^ (pointerWidth - 1) - 1

/-- Whether a request of so many bytes is granted: none is needed for an empty one, and
    one over `isize::MAX` never is. -/
structure Allocator (pointerWidth : Nat) where
  grants : Nat → Bool
  empty : grants 0 = true
  refused : ∀ bytes, isizeMax pointerWidth < bytes → grants bytes = false

/-- `Vec::with_capacity`, which aborts on a capacity whose bytes are refused. -/
def vecWithCapacity {pointerWidth : Nat} (allocator : Allocator pointerWidth)
    (itemSize capacity : Nat) : Option (List P) :=
  if allocator.grants (capacity * itemSize) then some [] else none

/-- A machine with so many bytes to give. -/
def boundedAllocator (pointerWidth free : Nat) : Allocator pointerWidth where
  grants bytes := decide (bytes ≤ free ∧ bytes ≤ isizeMax pointerWidth)
  empty := decide_eq_true ⟨Nat.zero_le _, Nat.zero_le _⟩
  refused := fun _ hover => decide_eq_false fun h => Nat.not_lt.mpr h.2 hover

/-- `try_into().unwrap_or(usize::MAX)`. -/
def requestedCount (pointerWidth : Nat) (probeConfig : ProbingConfig) : Nat :=
  if probeConfig.randomNodesPerInterval.toNat ≤ usizeMax pointerWidth then
    probeConfig.randomNodesPerInterval.toNat
  else usizeMax pointerWidth

/-- The nodes of the graph, in the order of the pass, that can be recipients. -/
def eligibleNodes [DecidableEq N] (asPubkey : N → Option P) (ourNodeId : N)
    (nodes : List N) : List P :=
  nodes.filterMap fun nodeId => if nodeId = ourNodeId then none else asPubkey nodeId

/-- `random_recipients` of `spawn_probing_loop`, for keys of `itemSize` bytes. -/
def randomRecipients {pointerWidth : Nat} (allocator : Allocator pointerWidth)
    (itemSize : Nat) (genRange : GenRange R) (probeConfig : ProbingConfig)
    (eligible : List P) (rng : R) : Option (List P) :=
  (reservoirSample (vecWithCapacity allocator itemSize) genRange eligible
    (requestedCount pointerWidth probeConfig) rng).map Prod.fst

/-! ## The law -/

/-- The selection returns as many nodes as requested, or all there are, each from a
    position of its own. -/
def Completes {pointerWidth : Nat} (allocator : Allocator pointerWidth) (itemSize : Nat)
    (genRange : GenRange R) (probeConfig : ProbingConfig) (eligible : List P) (rng : R) :
    Prop :=
  ∃ (recipients : List P) (positions : List (Fin eligible.length)),
    randomRecipients allocator itemSize genRange probeConfig eligible rng =
      some recipients ∧
    recipients.length = min (requestedCount pointerWidth probeConfig) eligible.length ∧
    positions.Nodup ∧ recipients = positions.map eligible.get

variable {pointerWidth itemSize : Nat} {allocator : Allocator pointerWidth}
  {genRange : GenRange R} {probeConfig : ProbingConfig} {eligible : List P} {rng : R}
  {recipients : List P}

/-- What the allocator grants is sampled without a panic. -/
theorem completes_of_granted
    (h : allocator.grants (requestedCount pointerWidth probeConfig * itemSize) = true) :
    Completes allocator itemSize genRange probeConfig eligible rng := by
  rcases Nat.eq_zero_or_pos (requestedCount pointerWidth probeConfig) with hzero | hpos
  · refine ⟨[], [], ?_, ?_, List.nodup_nil, rfl⟩
    · rw [randomRecipients, reservoirSample, if_pos hzero]
      rfl
    · rw [hzero, Nat.zero_min, List.length_nil]
  · obtain ⟨positions, hd, hlen, hget⟩ := sampling_positions genRange
      (requestedCount pointerWidth probeConfig) rng eligible
    refine ⟨_, positions, ?_, ?_, hd, hget⟩
    · rw [randomRecipients, reservoirSample_of_alloc hpos (if_pos h)]
      rfl
    · rw [hget, List.length_map, hlen]

/-- A selection that returns has been granted its vector. -/
theorem granted_of_returns
    (h : randomRecipients allocator itemSize genRange probeConfig eligible rng =
      some recipients) :
    allocator.grants (requestedCount pointerWidth probeConfig * itemSize) = true := by
  by_contra hover
  have hpos : requestedCount pointerWidth probeConfig ≠ 0 := by
    intro hzero
    rw [hzero, Nat.zero_mul] at hover
    exact hover allocator.empty
  rw [randomRecipients, reservoirSample, if_neg hpos, vecWithCapacity, if_neg hover] at h
  cases h

/-- **WHEN THE SELECTION COMPLETES**: for every configured count, every graph and every
    generator, exactly when the vector for the requested count is granted, which it
    never is over `isize::MAX` bytes. -/
theorem selection_completes_iff [DecidableEq N] (allocator : Allocator pointerWidth)
    (itemSize : Nat) (genRange : GenRange R) (probeConfig : ProbingConfig)
    (asPubkey : N → Option P) (ourNodeId : N) (nodes : List N) (rng : R) :
    (Completes allocator itemSize genRange probeConfig
        (eligibleNodes asPubkey ourNodeId nodes) rng ↔
      allocator.grants (requestedCount pointerWidth probeConfig * itemSize) = true) ∧
    (isizeMax pointerWidth < requestedCount pointerWidth probeConfig * itemSize →
      ¬ Completes allocator itemSize genRange probeConfig
        (eligibleNodes asPubkey ourNodeId nodes) rng) := by
  have hgranted (h : Completes allocator itemSize genRange probeConfig
      (eligibleNodes asPubkey ourNodeId nodes) rng) :
      allocator.grants (requestedCount pointerWidth probeConfig * itemSize) = true := by
    obtain ⟨recipients, -, hsome, -⟩ := h
    exact granted_of_returns hsome
  refine ⟨⟨hgranted, completes_of_granted⟩, fun hover h => ?_⟩
  cases (allocator.refused _ hover).symm.trans (hgranted h)

/-! ## A count that validation accepts -/

/-- The configuration with another `random_nodes_per_interval`. -/
def withCount (config : NodeConfig) (count : UInt64) : NodeConfig :=
  { config with probing := config.probing.map fun probeConfig =>
      { probeConfig with randomNodesPerInterval := count } }

/-- Validation accepts any count. -/
theorem validate_withCount {σ : Type} {E : Platform σ} {config : NodeConfig}
    (h : validate E config = none) (count : UInt64) :
    validate E (withCount config count) = none := by
  obtain ⟨hn, hl, hr, hp, hd⟩ := validate_none.mp h
  refine validate_none.mpr ⟨hn, hl, hr, ?_, hd⟩
  cases hprobing : config.probing with
  | none =>
      rw [withCount, hprobing]
      rfl
  | some probeConfig =>
      rw [hprobing] at hp
      rw [withCount, hprobing]
      exact hp

/-- Random probes of one node every minute. -/
private def randomProbing : ProbingConfig := ⟨60, [], [], 1000, 1, 60, 1, 2⟩

/-- A whole configuration that asks for random probes. -/
private def randomConfig : NodeConfig :=
  ⟨⟨"127.0.0.1", 8332, "user", "pass"⟩, "testnet", ⟨9735, none, []⟩, ⟨true, none, 6⟩,
    some randomProbing, none⟩

/-- On a machine with a gigabyte to give, a thousand keys are selected, and 2^40, which
    are fewer than `isize::MAX` bytes, are not. -/
theorem selection_completes_gigabyte :
    Completes (boundedAllocator 64 (2 ^ 30)) 64 nextAnswer { randomProbing with
        randomNodesPerInterval := 1000 } (eligibleNodes some 0 [0, 1, 2]) ⟨[], []⟩ ∧
      ¬ Completes (boundedAllocator 64 (2 ^ 30)) 64 nextAnswer { randomProbing with
        randomNodesPerInterval := 1099511627776 } (eligibleNodes some 0 [0, 1, 2])
        ⟨[], []⟩ := by
  constructor
  · exact (selection_completes_iff (boundedAllocator 64 (2 ^ 30)) 64 nextAnswer _ some 0
      [0, 1, 2] ⟨[], []⟩).1.mpr (by decide)
  · intro h
    have hgranted := (selection_completes_iff (boundedAllocator 64 (2 ^ 30)) 64 nextAnswer _
      some 0 [0, 1, 2] ⟨[], []⟩).1.mp h
    exact absurd hgranted (by decide)

/-- A request for 2^57 keys of 64 bytes aborts with every allocator, in a graph of one
    node. -/
theorem selection_aborts :
    validate readyPlatform (withCount randomConfig 144115188075855872) = none ∧
      ∃ probeConfig,
        (withCount randomConfig 144115188075855872).probing = some probeConfig ∧
        ∀ allocator : Allocator 64, ¬ Completes allocator 64 nextAnswer probeConfig
          (eligibleNodes some 0 [1]) ⟨[], []⟩ := by
  refine ⟨validate_withCount rfl _, _, rfl, ?_⟩
  rintro allocator ⟨recipients, -, hsome, -⟩
  have hover : isizeMax 64 <
      requestedCount 64 { randomProbing with randomNodesPerInterval := 144115188075855872 } * 64 :=
    by decide
  cases (allocator.refused _ hover).symm.trans (granted_of_returns hsome)

end RecipientSample
