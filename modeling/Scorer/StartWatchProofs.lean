import Mathlib.Data.List.Nodup
import Mathlib.Data.List.Range

/-! # The channels that a start watches

    `start_ldk` reads the channel monitors and the output sweeper from disk, brings
    them to the chain tip together with the channel manager, and hands the monitors to
    the `ChainMonitor`.  Whether it does the last two hangs on one flag, which says
    that the file of the channel manager could be opened.

    * `startLdk` follows steps 6 to 14; what comes after changes none of it;
    * `Watched`: every monitor at the tip and handed over once, and the sweeper that
      was read at the tip;
    * `stored_channels_watched_iff`: for which contents of the directory this holds. -/

namespace StartWatch

/-- A block, by hash and height. -/
structure BestBlock (β : Type) where
  blockHash : β
  height    : Nat
  deriving DecidableEq, Repr

/-- The `dyn Listen`s of a start; monitors by their place in what was read. -/
inductive Listener where
  | channelManager
  | outputSweeper
  | channelMonitor (k : Nat)
  deriving DecidableEq, Repr

/-- `{ldk_data_dir}/manager`.  A channel manager is its `current_best_block` here, and
    it is read with the monitors at hand. -/
inductive ManagerFile (β μ : Type) where
  | absent
  | unopenable
  | opened (read : List μ → Except String (β × BestBlock β))

/-- What becomes of reading the sweeper's file. -/
inductive SweeperFile (β : Type) where
  | notFound
  | unreadable (e : String)
  | bytes (read : Except String (BestBlock β))

/-- What the storage directory gives: block hashes `β`, channel monitors `μ`. -/
structure Storage (β μ : Type) where
  channelMonitors : Except String (List (β × μ))
  managerFile     : ManagerFile β μ
  sweeperFile     : SweeperFile β

/-- `synchronize_listeners`: from where each listener stands to where it stands after,
    with the tip.  A listener that is given with its own block is brought to the tip. -/
structure ChainSync (β : Type) where
  run    : List (β × Listener) → (Listener → β) → Except String (BestBlock β × (Listener → β))
  brings : ∀ chainListeners standing tip after,
    run chainListeners standing = .ok (tip, after) →
    ∀ l, (standing l, l) ∈ chainListeners → after l = tip.blockHash

/-- What the calls of a start come to, beyond the storage. -/
structure Environment (β μ : Type) where
  polledChainTip      : Except String (BestBlock β)
  synchronize         : ChainSync β
  /-- whether the answer is `Ok(Completed)`, with the monitors handed over before -/
  loadExistingMonitor : List μ → μ → Bool
  channelId           : μ → String

/-- Where a start has brought everything when it goes on to run the node. -/
structure Running (β : Type) where
  chainTip : BestBlock β
  standing : Listener → β
  loaded   : List Nat

variable {β μ : Type} (D : Storage β μ) (E : Environment β μ)

/-! ## The steps -/

/-- Step 11; the flag is `restarting_node`. -/
def initChannelManager (channelmonitors : List (β × μ)) (polledChainTip : BestBlock β) :
    Except String (Bool × β × BestBlock β) :=
  match D.managerFile with
  | .opened read =>
      match read (channelmonitors.map Prod.snd) with
      | .ok (blockHash, channelManager) => .ok (true, blockHash, channelManager)
      | .error e => .error ("Failed to deserialize channel manager: " ++ e)
  -- `if let Ok(f)`: whatever the error is, the node starts fresh
  | .absent => .ok (false, polledChainTip.blockHash, polledChainTip)
  | .unopenable => .ok (false, polledChainTip.blockHash, polledChainTip)

/-- Step 12: the best block of the sweeper. -/
def initOutputSweeper (channelManager : BestBlock β) : Except String (BestBlock β) :=
  match D.sweeperFile with
  | .notFound => .ok channelManager
  | .bytes (.ok bestBlock) => .ok bestBlock
  | .bytes (.error e) => .error ("Failed to deserialize OutputSweeper: " ++ e)
  | .unreadable e => .error ("Failed to read OutputSweeper: " ++ e)

/-- Where the listeners stand before step 13. -/
def initialStanding (channelmonitors : List (β × μ)) (managerBlockhash : β)
    (sweeperBestBlock : BestBlock β) : Listener → β
  | .channelManager => managerBlockhash
  | .outputSweeper => sweeperBestBlock.blockHash
  | .channelMonitor k => (channelmonitors[k]?.map Prod.fst).getD managerBlockhash

/-- The vector that step 13 fills. -/
def chainListeners (channelmonitors : List (β × μ)) (managerBlockhash : β)
    (sweeperBestBlock : BestBlock β) : List (β × Listener) :=
  [(managerBlockhash, .channelManager), (sweeperBestBlock.blockHash, .outputSweeper)] ++
    channelmonitors.zipIdx.map fun m => (m.1.1, .channelMonitor m.2)

/-- Step 14: the first monitor that is not taken ends the start. -/
def loadMonitors : List ((β × μ) × Nat) → List μ → Except String (List Nat)
  | [], _ => .ok []
  | ((_, channelMonitor), k) :: rest, before =>
      if E.loadExistingMonitor before channelMonitor then
        (loadMonitors rest (before ++ [channelMonitor])).map (k :: ·)
      else .error ("Failed to load existing monitor for channel " ++ E.channelId channelMonitor)

/-- `start_ldk`, from the reading of the monitors to their hand-over. -/
def startLdk : Except String (Running β) :=
  match D.channelMonitors with
  | .error e => .error ("Failed to read channel monitors from disk: " ++ e)
  | .ok channelmonitors =>
    match E.polledChainTip with
    | .error e => .error ("Failed to fetch best block header and best block: " ++ e)
    | .ok polledChainTip =>
      match initChannelManager D channelmonitors polledChainTip with
      | .error e => .error e
      | .ok (restartingNode, managerBlockhash, channelManager) =>
        match initOutputSweeper D channelManager with
        | .error e => .error e
        | .ok sweeperBestBlock =>
          let standing := initialStanding channelmonitors managerBlockhash sweeperBestBlock
          if restartingNode then
            match E.synchronize.run
                (chainListeners channelmonitors managerBlockhash sweeperBestBlock) standing with
            | .error e => .error ("Failed to synchronize chain listeners: " ++ e)
            | .ok (chainTip, standing) =>
                (loadMonitors E channelmonitors.zipIdx []).map (⟨chainTip, standing, ·⟩)
          else .ok ⟨polledChainTip, standing, []⟩

/-! ## What is watched -/

/-- Every monitor that was read is at the tip and was handed over once; so is the
    sweeper at the tip, if it was read. -/
structure Watched (r : Running β) : Prop where
  monitors : ∀ channelmonitors, D.channelMonitors = .ok channelmonitors →
    ∀ k, k < channelmonitors.length →
      r.standing (.channelMonitor k) = r.chainTip.blockHash ∧ r.loaded.count k = 1
  sweeper : ∀ bestBlock, D.sweeperFile = .bytes (.ok bestBlock) →
    r.standing .outputSweeper = r.chainTip.blockHash

/-- The manager file could be opened. -/
def ManagerOpened : Prop := ∃ read, D.managerFile = .opened read

/-- No monitor is stored, and a stored sweeper is already at the tip that is polled. -/
def NothingToSync : Prop :=
  D.channelMonitors = .ok [] ∧ ∀ bestBlock tip, D.sweeperFile = .bytes (.ok bestBlock) →
    E.polledChainTip = .ok tip → bestBlock.blockHash = tip.blockHash

variable {D E} {r : Running β} {channelmonitors : List (β × μ)}

/-- A start that goes through has loaded every monitor. -/
theorem loadMonitors_ok {rest : List ((β × μ) × Nat)} {before : List μ} {loaded : List Nat}
    (h : loadMonitors E rest before = .ok loaded) : loaded = rest.map Prod.snd := by
  induction rest generalizing before loaded with
  | nil => exact (Except.ok.inj h).symm
  | cons m rest ih =>
      obtain ⟨⟨hash, channelMonitor⟩, k⟩ := m
      rw [loadMonitors] at h
      split at h
      · cases hrest : loadMonitors E rest (before ++ [channelMonitor]) with
        | error e => rw [hrest] at h; exact nomatch h
        | ok tail =>
            rw [hrest] at h
            obtain rfl := Except.ok.inj h
            rw [ih hrest]
            rfl
      · exact nomatch h

/-- A monitor is in the vector with its own block. -/
theorem monitor_mem_chainListeners {managerBlockhash : β} {sweeperBestBlock : BestBlock β}
    {k : Nat} (hk : k < channelmonitors.length) :
    (initialStanding channelmonitors managerBlockhash sweeperBestBlock (.channelMonitor k),
      .channelMonitor k) ∈ chainListeners channelmonitors managerBlockhash sweeperBestBlock := by
  refine List.mem_append_right _ (List.mem_map.mpr ⟨(channelmonitors[k], k), ?_, ?_⟩)
  · exact List.mk_mem_zipIdx_iff_getElem?.mpr (List.getElem?_eq_getElem hk)
  · rw [initialStanding, List.getElem?_eq_getElem hk]
    rfl

/-- The sweeper is always among those that are synchronised. -/
theorem sweeper_mem_chainListeners {managerBlockhash : β} {sweeperBestBlock : BestBlock β} :
    (initialStanding channelmonitors managerBlockhash sweeperBestBlock .outputSweeper,
      .outputSweeper) ∈ chainListeners channelmonitors managerBlockhash sweeperBestBlock :=
  List.mem_append_left _ (List.mem_cons_of_mem _ List.mem_cons_self)

/-- The flag says that the manager's file could be opened. -/
theorem initChannelManager_flag {polledChainTip channelManager : BestBlock β} {flag : Bool}
    {blockHash : β} (h : initChannelManager D channelmonitors polledChainTip =
      .ok (flag, blockHash, channelManager)) : flag = true ↔ ManagerOpened D := by
  rw [initChannelManager] at h
  cases hfile : D.managerFile with
  | opened read =>
      rw [hfile] at h
      refine ⟨fun _ => ⟨read, hfile⟩, fun _ => ?_⟩
      cases hread : read (channelmonitors.map Prod.snd) with
      | error e => simp only [hread] at h; exact nomatch h
      | ok v =>
          simp only [hread] at h
          exact (congrArg Prod.fst (Except.ok.inj h)).symm
  | absent =>
      rw [hfile] at h
      obtain rfl : false = flag := congrArg Prod.fst (Except.ok.inj h)
      refine ⟨fun hf => (nomatch hf), ?_⟩
      -- with no file to open the arm of a fresh node is taken
      rintro ⟨read, hread⟩
      exact nomatch hfile.symm.trans hread
  | unopenable =>
      rw [hfile] at h
      obtain rfl : false = flag := congrArg Prod.fst (Except.ok.inj h)
      refine ⟨fun hf => (nomatch hf), ?_⟩
      rintro ⟨read, hread⟩
      exact nomatch hfile.symm.trans hread

/-- What a start that goes on has done: with the manager's file open, the listeners
    are synchronised and the monitors handed over in order; without it the monitors
    are dropped and everything stays where it was. -/
theorem startLdk_ok (h : startLdk D E = .ok r) :
    ∃ channelmonitors managerBlockhash sweeperBestBlock,
      D.channelMonitors = .ok channelmonitors ∧
      (∀ bestBlock, D.sweeperFile = .bytes (.ok bestBlock) → sweeperBestBlock = bestBlock) ∧
      ((ManagerOpened D ∧
        E.synchronize.run (chainListeners channelmonitors managerBlockhash sweeperBestBlock)
          (initialStanding channelmonitors managerBlockhash sweeperBestBlock) =
            .ok (r.chainTip, r.standing) ∧
        r.loaded = List.range channelmonitors.length) ∨
      (¬ ManagerOpened D ∧ E.polledChainTip = .ok r.chainTip ∧
        r.standing = initialStanding channelmonitors managerBlockhash sweeperBestBlock ∧
        r.loaded = [])) := by
  rw [startLdk] at h
  split at h
  · exact nomatch h
  rename_i channelmonitors hmonitors
  split at h
  · exact nomatch h
  rename_i polledChainTip htip
  split at h
  · exact nomatch h
  rename_i restartingNode managerBlockhash channelManager hmanager
  split at h
  · exact nomatch h
  rename_i sweeperBestBlock hsweeper
  have hflag := initChannelManager_flag hmanager
  refine ⟨channelmonitors, managerBlockhash, sweeperBestBlock, hmonitors,
    fun bestBlock hfile => ?_, ?_⟩
  · rw [initOutputSweeper, hfile] at hsweeper
    exact (Except.ok.inj hsweeper).symm
  · cases restartingNode with
    | true =>
        simp only [if_true] at h
        split at h
        · exact nomatch h
        rename_i chainTip standing hsync
        cases hload : loadMonitors E channelmonitors.zipIdx [] with
        | error e => rw [hload] at h; exact nomatch h
        | ok loaded =>
            rw [hload] at h
            obtain rfl := Except.ok.inj h
            refine Or.inl ⟨hflag.mp rfl, hsync, ?_⟩
            rw [loadMonitors_ok hload, List.zipIdx_map_snd, List.range_eq_range']
    | false =>
        -- a manager file that cannot be opened counts as a fresh node: nothing is loaded
        simp only [Bool.false_eq_true, if_false] at h
        obtain rfl := Except.ok.inj h
        exact Or.inr ⟨fun hopened => (nomatch hflag.mpr hopened), htip, rfl, rfl⟩

/-- **WHICH STARTS WATCH**: when a start goes on to run the node, every stored channel
    is watched exactly if the manager's file could be opened, or there was nothing to
    bring to the tip. -/
theorem stored_channels_watched_iff (h : startLdk D E = .ok r) :
    Watched D r ↔ ManagerOpened D ∨ NothingToSync D E := by
  obtain ⟨channelmonitors, hash, best, hmonitors, hbest, hcase⟩ := startLdk_ok h
  rcases hcase with ⟨hopened, hsync, hloaded⟩ | ⟨hfresh, htip, hstanding, hloaded⟩
  · refine ⟨fun _ => Or.inl hopened, fun _ => ?_⟩
    have hbrings := E.synchronize.brings _ _ _ _ hsync
    refine ⟨fun monitors hread k hk => ⟨?_, ?_⟩, fun _ _ => ?_⟩
    · obtain rfl := Except.ok.inj (hmonitors.symm.trans hread)
      exact hbrings _ (monitor_mem_chainListeners hk)
    · obtain rfl := Except.ok.inj (hmonitors.symm.trans hread)
      rw [hloaded]
      exact List.count_eq_one_of_mem List.nodup_range (List.mem_range.mpr hk)
    · exact hbrings _ sweeper_mem_chainListeners
  · have hsweeper : ∀ bestBlock, D.sweeperFile = .bytes (.ok bestBlock) →
        r.standing .outputSweeper = bestBlock.blockHash := by
      intro bestBlock hfile
      rw [hstanding, ← hbest bestBlock hfile]
      rfl
    constructor
    · intro hw
      refine Or.inr ⟨?_, fun bestBlock tip hfile htip' => ?_⟩
      · cases channelmonitors with
        | nil => exact hmonitors
        | cons m rest =>
            -- the first monitor was not handed over
            have hcount := (hw.monitors _ hmonitors 0 (Nat.succ_pos _)).2
            rw [hloaded] at hcount
            exact nomatch hcount
      · obtain rfl := Except.ok.inj (htip.symm.trans htip')
        exact (hsweeper bestBlock hfile).symm.trans (hw.sweeper bestBlock hfile)
    · intro hor
      obtain ⟨hnone, hsynced⟩ := hor.resolve_left hfresh
      refine ⟨fun monitors hread k hk => ?_, fun bestBlock hfile => ?_⟩
      · obtain rfl := Except.ok.inj (hnone.symm.trans hread)
        exact absurd hk (Nat.not_lt_zero k)
      · exact (hsweeper bestBlock hfile).trans (hsynced bestBlock _ hfile htip)

/-! ## Two starts -/

/-- Block hashes are heights; every listener is brought to block 9. -/
private def plainSync : ChainSync Nat where
  run := fun chainListeners standing => .ok (⟨9, 9⟩, fun l =>
    if (standing l, l) ∈ chainListeners then 9 else standing l)
  brings := by
    intro chainListeners standing tip after h l hl
    obtain ⟨rfl, rfl⟩ := Prod.mk.inj (Except.ok.inj h)
    exact if_pos hl

/-- An environment in which everything succeeds. -/
private def plainEnvironment : Environment Nat Unit :=
  ⟨.ok ⟨9, 9⟩, plainSync, fun _ _ => true, fun _ => ""⟩

/-- One monitor at block 5 and a sweeper at block 7. -/
private def plainStorage (managerFile : ManagerFile Nat Unit) : Storage Nat Unit :=
  ⟨.ok [(5, ())], managerFile, .bytes (.ok ⟨7, 7⟩)⟩

/-- A manager that lags one block behind. -/
private def readableManager : ManagerFile Nat Unit := .opened fun _ => .ok (8, ⟨8, 8⟩)

/-- With it the start watches every stored channel. -/
theorem stored_channels_watched_iff_readable :
    ∃ r, startLdk (plainStorage readableManager) plainEnvironment = .ok r ∧
      (Watched (plainStorage readableManager) r ↔
        ManagerOpened (plainStorage readableManager) ∨
          NothingToSync (plainStorage readableManager) plainEnvironment) :=
  ⟨_, rfl, stored_channels_watched_iff rfl⟩

/-- The manager's file cannot be opened: the start goes on, the monitor is not handed
    over, and the sweeper stays where it was. -/
theorem unopenable_manager_unwatched :
    ∃ r, startLdk (plainStorage .unopenable) plainEnvironment = .ok r ∧ r.loaded = [] ∧
      r.standing .outputSweeper = 7 ∧ r.chainTip.blockHash = 9 ∧
      ¬ Watched (plainStorage .unopenable) r := by
  refine ⟨_, rfl, rfl, rfl, rfl, fun hw => ?_⟩
  exact nomatch (hw.monitors _ rfl 0 Nat.one_pos).2

end StartWatch
