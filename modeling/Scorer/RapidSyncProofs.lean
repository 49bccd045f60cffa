import Scorer.LabelledRunProofs
import Scorer.SyncTimestampProofs

/-! # The timestamp and the graph

    A round of rapid gossip sync applies a snapshot to the graph in memory and then
    saves its timestamp; the background processor writes the graph to its own file
    at other times, and a restart reads both.  The server answers a request from a
    timestamp with the updates published after it, so a timestamp that a restart
    finds ahead of its graph is never made up for.

    * `step` interleaves the rounds, the writes, crashes and restarts;
    * `graph_has_updates`: in every run that does not crash while the saved
      timestamp is ahead of the graph file, and restarts with the graph file
      readable, a request finds everything up to its timestamp in the graph. -/

namespace RapidSync

open LabelledRun SyncTimestamp

/-- A snapshot of the server: the updates published after `since`, up to `latest`. -/
structure Snapshot where
  since  : UInt32
  latest : UInt32
  deriving DecidableEq, Repr

/-- Where `sync_network_graph` is. -/
inductive Round (υ : Type) where
  | idle
  | requested (lastSync : UInt32)
  | applying (snapshot : Snapshot) (rest : List υ)
  | updated (timestamp : UInt32)
  | saving (timestamp : UInt32)
  deriving DecidableEq, Repr

/-- The process and its two files.  `behind` and `ahead` are about the history: the
    graph file lacks a snapshot that memory has begun to apply; a timestamp has
    been saved while it did. -/
structure Sync (υ : Type) where
  up        : Bool
  graph     : List υ
  graphFile : Option (List υ)
  stateFile : Option FileText
  round     : Round υ
  behind    : Bool
  ahead     : Bool

/-- What may happen next: a step of a round, a write of the graph file, a crash, a start. -/
inductive SyncAction (υ : Type) where
  | request (readFails : Bool)
  | downloadFails
  | answer (latest : UInt32)
  | apply
  | applyFails
  | applied
  | create (ok : Bool)
  | write (n : Nat)
  | saved
  | saveFails
  | gossip (update : υ)
  | writeGraph
  | crash
  | restart (readable : Bool)
  deriving DecidableEq, Repr

variable {υ : Type} (published : List (UInt32 × υ))

/-- The answer of the server. -/
def delta (snapshot : Snapshot) : List υ :=
  (published.filter fun p => snapshot.since < p.1 && p.1 ≤ snapshot.latest).map Prod.snd

/-- `read_network`: an empty graph when the file is absent or undecodable. -/
def readNetwork (readable : Bool) (file : Option (List υ)) : List υ :=
  if readable then file.getD [] else []

/-- The graph is being changed. -/
def isApplying : Round υ → Bool
  | .applying _ _ => true
  | _ => false

/-- One move; a crash loses the memory and what was not written. -/
def step (s : Sync υ) : SyncAction υ → Option (Sync υ)
  | .request readFails =>
      match s.up, s.round with
      | true, .idle => some { s with round := .requested (lastSync readFails s.stateFile) }
      | _, _ => none
  | .downloadFails =>
      match s.round with
      | .requested _ => some { s with round := .idle }
      | _ => none
  | .answer latest =>
      match s.round with
      | .requested since =>
          some { s with round := .applying ⟨since, latest⟩ (delta published ⟨since, latest⟩),
                        behind := true }
      | _ => none
  | .apply =>
      match s.round with
      | .applying snapshot (update :: rest) =>
          some { s with graph := update :: s.graph, round := .applying snapshot rest }
      | _ => none
  | .applyFails =>
      -- the snapshot is malformed further on
      match s.round with
      | .applying _ _ => some { s with round := .idle }
      | _ => none
  | .applied =>
      match s.round with
      | .applying snapshot [] => some { s with round := .updated snapshot.latest }
      | _ => none
  | .create ok =>
      match s.round with
      | .updated timestamp =>
          if ok then
            some { s with stateFile := some (torn timestamp 0), round := .saving timestamp,
                          ahead := s.ahead || s.behind }
          else some { s with round := .idle }
      | _ => none
  | .write n =>
      match s.round with
      | .saving timestamp => some { s with stateFile := some (torn timestamp n) }
      | _ => none
  | .saved =>
      match s.round with
      | .saving timestamp =>
          some { s with stateFile := some (.utf8 (printed timestamp)), round := .idle }
      | _ => none
  | .saveFails =>
      match s.round with
      | .saving _ => some { s with round := .idle }
      | _ => none
  | .gossip update => if s.up then some { s with graph := update :: s.graph } else none
  | .writeGraph =>
      if s.up then
        some { s with graphFile := some s.graph, behind := isApplying s.round, ahead := false }
      else none
  | .crash =>
      if s.up then
        some { s with up := false, graph := [], round := .idle, behind := false }
      else none
  | .restart readable =>
      if s.up then none
      else some { s with up := true, graph := readNetwork readable s.graphFile }

/-- A node that has not synced yet, with whatever graph it has on disk. -/
def newSync (graphFile : Option (List υ)) : Sync υ :=
  ⟨false, [], graphFile, none, .idle, false, false⟩

/-- No crash while a saved timestamp is ahead of the graph file, and no restart
    that cannot read the graph file when there is a timestamp. -/
def KeepsUp (s : Sync υ) : SyncAction υ → Prop
  | .crash => s.ahead = false
  | .restart readable => readable = true ∨ lastSync false s.stateFile = 0
  | _ => True

instance keepsUpDecidable (s : Sync υ) : (a : SyncAction υ) → Decidable (KeepsUp s a)
  | .crash => inferInstanceAs (Decidable (s.ahead = false))
  | .restart readable =>
      inferInstanceAs (Decidable (readable = true ∨ lastSync false s.stateFile = 0))
  | .request _ | .downloadFails | .answer _ | .apply | .applyFails | .applied | .create _
  | .write _ | .saved | .saveFails | .gossip _ | .writeGraph =>
      inferInstanceAs (Decidable True)

/-! ## The invariant -/

/-- The graph has every update published up to the timestamp. -/
def Covers (graph : List υ) (timestamp : UInt32) : Prop :=
  ∀ p ∈ published, 0 < p.1 → p.1 ≤ timestamp → p.2 ∈ graph

/-- The timestamp that the process is about to save: the graph has it all. -/
def pendingTimestamp : Round υ → Option UInt32
  | .updated timestamp => some timestamp
  | .saving timestamp => some timestamp
  | _ => none

/-- Memory and files are up to the timestamps that will be asked from. -/
structure Synced (s : Sync υ) : Prop where
  /-- memory is up to the saved timestamp, and to the one about to be saved -/
  memory : s.up = true → Covers published s.graph (lastSync false s.stateFile)
  pending : ∀ timestamp ∈ pendingTimestamp s.round, Covers published s.graph timestamp
  /-- so is the graph file, unless the timestamp is ahead of it -/
  file : s.ahead = false →
    Covers published (s.graphFile.getD []) (lastSync false s.stateFile)
  pendingFile : s.behind = false → ∀ timestamp ∈ pendingTimestamp s.round,
    Covers published (s.graphFile.getD []) timestamp
  saving : ∀ timestamp, s.round = .saving timestamp → s.ahead = false → s.behind = false
  requested : ∀ since, s.round = .requested since → Covers published s.graph since
  applying : ∀ snapshot rest, s.round = .applying snapshot rest →
    Covers published s.graph snapshot.since ∧
      (∀ update ∈ delta published snapshot, update ∈ rest ∨ update ∈ s.graph) ∧
      s.behind = true
  down : s.up = false → s.round = .idle ∧ s.ahead = false

variable {published} {s t : Sync υ} {graph graph' : List υ} {v w : UInt32}
  {file : Option FileText}

/-- A larger graph covers an earlier moment. -/
theorem Covers.mono (h : Covers published graph w) (hle : v ≤ w)
    (hsub : ∀ u ∈ graph, u ∈ graph') : Covers published graph' v :=
  fun p hp hpos hlt => hsub _ (h p hp hpos (UInt32.le_trans hlt hle))

/-- Before the first update there is nothing to cover. -/
theorem covers_zero (graph : List υ) : Covers published graph 0 := by
  intro p _ hpos hle
  exact absurd (UInt32.lt_of_lt_of_le hpos hle) (UInt32.lt_irrefl 0)

/-- What was published between two moments is in the snapshot of them. -/
theorem mem_delta {snapshot : Snapshot} {p : UInt32 × υ} (hp : p ∈ published)
    (hsince : snapshot.since < p.1) (hlatest : p.1 ≤ snapshot.latest) :
    p.2 ∈ delta published snapshot := by
  refine List.mem_map.mpr ⟨p, List.mem_filter.mpr ⟨hp, ?_⟩, rfl⟩
  simp [hsince, hlatest]

/-- A graph up to `since` that has the snapshot from there is up to its end. -/
theorem covers_latest {snapshot : Snapshot} (h : Covers published graph snapshot.since)
    (hall : ∀ u ∈ delta published snapshot, u ∈ graph) :
    Covers published graph snapshot.latest := by
  intro p hp hpos hle
  by_cases hold : p.1 ≤ snapshot.since
  · exact h p hp hpos hold
  · exact hall _ (mem_delta hp (UInt32.not_le.mp hold) hle)

/-- An empty directory asks from the beginning. -/
theorem newSync_synced (graphFile : Option (List υ)) :
    Synced published (newSync graphFile) where
  memory := fun h => nomatch h
  pending := fun _ h => nomatch h
  file := fun _ => covers_zero _
  pendingFile := fun _ _ h => nomatch h
  saving := fun _ h => nomatch h
  requested := fun _ h => nomatch h
  applying := fun _ _ h => nomatch h
  down := fun _ => ⟨rfl, rfl⟩

/-- A step that ends the round and leaves graph and files. -/
private theorem synced_idle (hs : Synced published s) : Synced published { s with round := .idle } where
  memory := hs.memory
  pending := fun _ h => nomatch h
  file := hs.file
  pendingFile := fun _ _ h => nomatch h
  saving := fun _ h => nomatch h
  requested := fun _ h => nomatch h
  applying := fun _ _ h => nomatch h
  down := fun h => ⟨rfl, (hs.down h).2⟩

/-- An update that enters the graph. -/
private theorem synced_grow (hs : Synced published s) (update : υ) :
    Synced published { s with graph := update :: s.graph } := by
  have hgrow : ∀ u ∈ s.graph, u ∈ update :: s.graph := fun u hu =>
    List.mem_cons_of_mem _ hu
  refine ⟨fun h => (hs.memory h).mono (UInt32.le_refl _) hgrow,
    fun v hv => (hs.pending v hv).mono (UInt32.le_refl _) hgrow, hs.file,
    hs.pendingFile, hs.saving,
    fun since hr => (hs.requested since hr).mono (UInt32.le_refl _) hgrow, ?_, hs.down⟩
  intro snapshot rest hr
  obtain ⟨hcov, hrest, hbehind⟩ := hs.applying snapshot rest hr
  exact ⟨hcov.mono (UInt32.le_refl _) hgrow,
    fun u hu => (hrest u hu).imp_right (hgrow u), hbehind⟩

/-- A snapshot of which `rest` is still to be applied. -/
private theorem synced_applying {snapshot : Snapshot} {rest : List υ} {behind : Bool}
    (hs : Synced published s) (hup : s.up = true) (hbehind : behind = true)
    (hcov : Covers published s.graph snapshot.since)
    (hrest : ∀ update ∈ delta published snapshot, update ∈ rest ∨ update ∈ s.graph) :
    Synced published { s with round := .applying snapshot rest, behind := behind } where
  memory := hs.memory
  pending := fun _ h => nomatch h
  file := hs.file
  pendingFile := fun _ _ h => nomatch h
  saving := fun _ h => nomatch h
  requested := fun _ h => nomatch h
  applying := by
    intro snapshot' rest' happ
    obtain ⟨rfl, rfl⟩ := Round.applying.inj happ
    exact ⟨hcov, hrest, hbehind⟩
  down := fun h => nomatch hup.symm.trans h

/-- A process in the middle of a round is up. -/
private theorem up_of_round {r : Round υ} (hs : Synced published s) (hr : s.round = r)
    (hne : r ≠ .idle) : s.up = true := by
  cases hup : s.up with
  | true => rfl
  | false => exact absurd (hr.symm.trans (hs.down hup).1) hne

private theorem mem_pending {r : Round υ} {timestamp : UInt32} (hr : s.round = r)
    (h : timestamp ∈ pendingTimestamp r) : timestamp ∈ pendingTimestamp s.round := by
  rw [hr]
  exact h

/-- A file that cannot be read asks from the beginning, which is no later. -/
private theorem lastSync_le (hs : Covers published graph (lastSync false file))
    (readFails : Bool) : Covers published graph (lastSync readFails file) := by
  cases readFails with
  | false => exact hs
  | true =>
      have hzero : lastSync true file = 0 := by
        cases file with
        | none => rfl
        | some text => cases text <;> rfl
      rw [hzero]
      exact covers_zero graph

/-- The rewriting of the timestamp, at any point of it. -/
private theorem synced_torn {timestamp : UInt32} (ahead : Bool) (hup : s.up = true)
    (hmem : Covers published s.graph timestamp)
    (hfile : ahead = false → s.behind = false ∧
      Covers published (s.graphFile.getD []) timestamp)
    (hpending : s.behind = false → Covers published (s.graphFile.getD []) timestamp)
    (n : Nat) :
    Synced published { s with stateFile := some (torn timestamp n),
                              round := .saving timestamp, ahead := ahead } where
  memory := fun _ => hmem.mono (lastSync_torn false timestamp n) fun _ h => h
  pending := by
    intro v hv
    obtain rfl := Option.some.inj hv
    exact hmem
  file := fun h => (hfile h).2.mono (lastSync_torn false timestamp n) fun _ h => h
  pendingFile := by
    intro hb v hv
    obtain rfl := Option.some.inj hv
    exact hpending hb
  saving := fun _ _ h => (hfile h).1
  requested := fun _ h => nomatch h
  applying := fun _ _ h => nomatch h
  down := fun h => nomatch hup.symm.trans h

/-- A request from a timestamp that the graph is up to. -/
private theorem synced_requested {since : UInt32} (hs : Synced published s) (hup : s.up = true)
    (hcov : Covers published s.graph since) :
    Synced published { s with round := .requested since } where
  memory := hs.memory
  pending := fun _ h => nomatch h
  file := hs.file
  pendingFile := fun _ _ h => nomatch h
  saving := fun _ h => nomatch h
  requested := by
    intro since' hsince
    obtain rfl := Round.requested.inj hsince
    exact hcov
  applying := fun _ _ h => nomatch h
  down := fun h => nomatch hup.symm.trans h

/-- A snapshot that is applied to its end, before the graph is written again. -/
private theorem synced_updated {timestamp : UInt32} (hs : Synced published s)
    (hup : s.up = true) (hbehind : s.behind = true)
    (hcov : Covers published s.graph timestamp) :
    Synced published { s with round := .updated timestamp } where
  memory := hs.memory
  pending := by
    intro v hv
    obtain rfl := Option.some.inj hv
    exact hcov
  file := hs.file
  pendingFile := fun h => nomatch hbehind.symm.trans h
  saving := fun _ h => nomatch h
  requested := fun _ h => nomatch h
  applying := fun _ _ h => nomatch h
  down := fun h => nomatch hup.symm.trans h

/-- The end of the rewriting. -/
private theorem synced_saved {timestamp : UInt32} (hs : Synced published s)
    (hr : s.round = .saving timestamp) :
    Synced published { s with stateFile := some (.utf8 (printed timestamp)), round := .idle } where
  memory := by
    intro _
    rw [lastSync_printed timestamp]
    exact hs.pending _ (mem_pending hr rfl)
  pending := fun _ h => nomatch h
  file := by
    intro hahead
    rw [lastSync_printed timestamp]
    exact hs.pendingFile (hs.saving _ hr hahead) _ (mem_pending hr rfl)
  pendingFile := fun _ _ h => nomatch h
  saving := fun _ h => nomatch h
  requested := fun _ h => nomatch h
  applying := fun _ _ h => nomatch h
  down := fun h => nomatch (up_of_round hs hr (by rintro ⟨⟩)).symm.trans h

/-- The graph file catches up, also with the timestamp that is about to be saved. -/
private theorem synced_writeGraph (hs : Synced published s) (hup : s.up = true) :
    Synced published
      { s with graphFile := some s.graph, behind := isApplying s.round, ahead := false } where
  memory := hs.memory
  pending := hs.pending
  file := fun _ => hs.memory hup
  pendingFile := fun _ => hs.pending
  saving := by
    intro timestamp hr _
    have hr' : s.round = .saving timestamp := hr
    simp only [hr', isApplying]
  requested := hs.requested
  applying := by
    intro snapshot rest hr
    have hr' : s.round = .applying snapshot rest := hr
    obtain ⟨hcov, hrest, -⟩ := hs.applying snapshot rest hr'
    exact ⟨hcov, hrest, by simp only [hr', isApplying]⟩
  down := fun h => nomatch hup.symm.trans h

private theorem synced_crash (hs : Synced published s) (hahead : s.ahead = false) :
    Synced published { s with up := false, graph := [], round := .idle, behind := false } where
  memory := fun h => nomatch h
  pending := fun _ h => nomatch h
  file := hs.file
  pendingFile := fun _ _ h => nomatch h
  saving := fun _ h => nomatch h
  requested := fun _ h => nomatch h
  applying := fun _ _ h => nomatch h
  down := fun _ => ⟨rfl, hahead⟩

/-- What is read at a restart is up to the timestamp, or there is none: the process
    ended when no saved timestamp was ahead of the graph file. -/
private theorem synced_restart {readable : Bool} (hs : Synced published s)
    (hdown : s.up = false) (hg : readable = true ∨ lastSync false s.stateFile = 0) :
    Synced published { s with up := true, graph := readNetwork readable s.graphFile } := by
  obtain ⟨hidle, hahead⟩ := hs.down hdown
  have hmemory : Covers published (readNetwork readable s.graphFile)
      (lastSync false s.stateFile) := by
    rcases hg with rfl | hzero
    · exact hs.file hahead
    · rw [hzero]
      exact covers_zero _
  have hback : { s with up := true, graph := readNetwork readable s.graphFile } =
      { s with up := true, graph := readNetwork readable s.graphFile, round := .idle } := by
    rw [← hidle]
  rw [hback]
  exact ⟨fun _ => hmemory, (fun _ h => nomatch h), hs.file, (fun _ _ h => nomatch h),
    (fun _ h => nomatch h), (fun _ h => nomatch h), (fun _ _ h => nomatch h),
    (fun h => nomatch h)⟩

/-- One more update of the snapshot is in the graph. -/
private theorem synced_apply {snapshot : Snapshot} {update : υ} {rest : List υ}
    (hs : Synced published s) (hr : s.round = .applying snapshot (update :: rest)) :
    Synced published
      { s with graph := update :: s.graph, round := .applying snapshot rest } := by
  obtain ⟨hcov, hrest, hbehind⟩ := hs.applying snapshot _ hr
  have hup := up_of_round hs hr (by rintro ⟨⟩)
  refine synced_applying (synced_grow hs update) hup hbehind
    (hcov.mono (UInt32.le_refl _) fun u hu => List.mem_cons_of_mem _ hu) fun u hu => ?_
  rcases hrest u hu with hahead | hold
  · rcases List.mem_cons.mp hahead with rfl | hmem
    · exact Or.inr List.mem_cons_self
    · exact Or.inl hmem
  · exact Or.inr (List.mem_cons_of_mem _ hold)

/-- One move, arm by arm. -/
theorem step_synced {a : SyncAction υ} (hs : Synced published s) (hg : KeepsUp s a)
    (h : step published s a = some t) : Synced published t := by
  cases a with
  | request readFails =>
      simp only [step] at h
      split at h
      · rename_i hup _
        obtain rfl := Option.some.inj h
        exact synced_requested hs hup (lastSync_le (hs.memory hup) readFails)
      · exact nomatch h
  | downloadFails =>
      simp only [step] at h
      split at h
      · obtain rfl := Option.some.inj h
        exact synced_idle hs
      · exact nomatch h
  | answer latest =>
      simp only [step] at h
      split at h
      · rename_i since hr
        obtain rfl := Option.some.inj h
        have hup := up_of_round hs hr (by rintro ⟨⟩)
        exact synced_applying hs hup rfl (hs.requested since hr) fun u hu => Or.inl hu
      · exact nomatch h
  | apply =>
      simp only [step] at h
      split at h
      · rename_i snapshot update rest hr
        obtain rfl := Option.some.inj h
        exact synced_apply hs hr
      · exact nomatch h
  | applyFails =>
      simp only [step] at h
      split at h
      · obtain rfl := Option.some.inj h
        exact synced_idle hs
      · exact nomatch h
  | applied =>
      simp only [step] at h
      split at h
      · rename_i snapshot hr
        obtain rfl := Option.some.inj h
        obtain ⟨hcov, hrest, hbehind⟩ := hs.applying snapshot _ hr
        -- nothing of the snapshot is left, so its end may be saved
        exact synced_updated hs (up_of_round hs hr (by rintro ⟨⟩)) hbehind
          (covers_latest hcov fun u hu => (hrest u hu).resolve_left (by rintro ⟨⟩))
      · exact nomatch h
  | create ok =>
      simp only [step] at h
      split at h
      · rename_i timestamp hr
        have hpend := mem_pending hr rfl
        split at h
        · obtain rfl := Option.some.inj h
          -- the file is emptied first; the timestamp is now ahead of an old graph file
          refine synced_torn _ (up_of_round hs hr (by rintro ⟨⟩)) (hs.pending _ hpend)
            (fun hahead => ?_) (fun hb => hs.pendingFile hb _ hpend) 0
          have hbehind := (Bool.or_eq_false_iff.mp hahead).2
          exact ⟨hbehind, hs.pendingFile hbehind _ hpend⟩
        · obtain rfl := Option.some.inj h
          exact synced_idle hs
      · exact nomatch h
  | write n =>
      simp only [step] at h
      split at h
      · rename_i timestamp hr
        obtain rfl := Option.some.inj h
        have hpend := mem_pending hr rfl
        have htorn := synced_torn s.ahead (up_of_round hs hr (by rintro ⟨⟩))
          (hs.pending _ hpend)
          (fun hahead => ⟨hs.saving _ hr hahead,
            hs.pendingFile (hs.saving _ hr hahead) _ hpend⟩)
          (fun hb => hs.pendingFile hb _ hpend) n
        rw [← hr] at htorn
        exact htorn
      · exact nomatch h
  | saved =>
      simp only [step] at h
      split at h
      · rename_i timestamp hr
        obtain rfl := Option.some.inj h
        exact synced_saved hs hr
      · exact nomatch h
  | saveFails =>
      simp only [step] at h
      split at h
      · obtain rfl := Option.some.inj h
        exact synced_idle hs
      · exact nomatch h
  | gossip update =>
      simp only [step, Option.ite_none_right_eq_some, Option.some.injEq] at h
      obtain ⟨hup, rfl⟩ := h
      exact synced_grow hs update
  | writeGraph =>
      simp only [step, Option.ite_none_right_eq_some, Option.some.injEq] at h
      obtain ⟨hup, rfl⟩ := h
      exact synced_writeGraph hs hup
  | crash =>
      simp only [step, Option.ite_none_right_eq_some, Option.some.injEq] at h
      obtain ⟨-, rfl⟩ := h
      exact synced_crash hs hg
  | restart readable =>
      simp only [step, Option.ite_none_left_eq_some, Option.some.injEq] at h
      obtain ⟨hdown, rfl⟩ := h
      exact synced_restart hs (by simpa using hdown) hg

/-! ## The law of the timestamp -/

/-- **NEVER AHEAD**: in a run that does not crash while a saved timestamp is ahead
    of the graph file, and does not restart without the graph of a timestamp, a
    request from a timestamp finds the updates of every snapshot up to it in the
    graph. -/
theorem graph_has_updates (published : List (UInt32 × υ)) (graphFile : Option (List υ))
    (s : Sync υ) (since : UInt32)
    (hs : Reach (step published) KeepsUp (newSync graphFile) s)
    (hreq : s.round = .requested since) (snapshot : Snapshot)
    (hlatest : snapshot.latest ≤ since) : ∀ u ∈ delta published snapshot, u ∈ s.graph := by
  have hsynced : Synced published s :=
    reach_invariant (fun _ _ _ hI hg hst => step_synced hI hg hst) hs (newSync_synced graphFile)
  intro u hu
  obtain ⟨p, hp, rfl⟩ := List.mem_map.mp hu
  obtain ⟨hmem, hrange⟩ := List.mem_filter.mp hp
  simp only [Bool.and_eq_true, decide_eq_true_eq] at hrange
  exact hsynced.requested since hreq p hmem
    (UInt32.lt_of_le_of_lt UInt32.zero_le hrange.1) (UInt32.le_trans hrange.2 hlatest)

/-- Two updates, published at 5 and at 9. -/
def twoUpdates : List (UInt32 × Nat) := [(5, 50), (9, 90)]

/-- A whole round up to the saved timestamp 5. -/
def firstRound : List (SyncAction Nat) :=
  [.restart true, .request false, .answer 5, .apply, .applied, .create true, .saved]

/-- A second round has what the first one brought. -/
theorem graph_has_updates_secondRound :
    ∃ s : Sync Nat, Reach (step twoUpdates) KeepsUp (newSync none) s ∧
      s.round = .requested 5 ∧ 50 ∈ s.graph := by
  obtain ⟨s, hs, hreq⟩ := reach_of_check (newSync (none : Option (List Nat)))
    (step twoUpdates) KeepsUp
    (firstRound ++
      ([.writeGraph, .crash, .restart true, .request false] : List (SyncAction Nat)))
    (fun s => decide (s.round = .requested 5)) (by decide +kernel)
  have hround := of_decide_eq_true hreq
  exact ⟨s, hs, hround, graph_has_updates twoUpdates none s 5 hs hround ⟨0, 5⟩
    (UInt32.le_refl 5) 50 (by decide)⟩

/-- **THE SKIPPED DELTA**: the process crashes after the timestamp was saved and
    before the graph was written; the next request leaves out what the graph has
    lost. -/
theorem crash_skips_delta :
    ¬ ∀ (s : Sync Nat) (since : UInt32),
      Reach (step twoUpdates) anyStep (newSync none) s → s.round = .requested since →
      ∀ snapshot : Snapshot, snapshot.latest ≤ since →
        ∀ u ∈ delta twoUpdates snapshot, u ∈ s.graph := by
  intro hall
  obtain ⟨s, hs, hcheck⟩ := reach_of_check (newSync (none : Option (List Nat)))
    (step twoUpdates) anyStep
    (firstRound ++ ([.crash, .restart true, .request false] : List (SyncAction Nat)))
    (fun s => decide (s.round = .requested 5) && decide (s.graph = []))
    (by decide +kernel)
  obtain ⟨hreq, hgraph⟩ := Bool.and_eq_true _ _ |>.mp hcheck
  have hmem := hall s 5 hs (of_decide_eq_true hreq) ⟨0, 5⟩ (UInt32.le_refl 5) 50 (by decide)
  rw [of_decide_eq_true hgraph] at hmem
  exact nomatch hmem

end RapidSync
