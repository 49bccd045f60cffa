import Scorer.SweepStageProofs

/-! # The migration across crashes

    An attempt that a crash has cut short leaves its files half moved, a temporary
    file with the front of the joined bytes, or directories half removed, and the
    next attempt starts from there.  `Survived` is what holds at every such point:
    every descriptor that was there at first is accepted or still in a file that the
    migration takes, and nothing else can be read of these files.

    * `stage_survived`: every stage of an attempt keeps it;
    * `migration_survives_crashes`: the attempt that runs to its end has the sweeper
      accept exactly the descriptors that were there at first. -/

namespace SweepCrash

open LabelledRun CrashProgram SweepFiles DescriptorFile SweepMigration SweepStage
open SelfDelimited

variable {δ : Type} {codec : DescriptorCodec δ} {c : MigrationCalls}
  {s t u v s₀ : Disk δ} {d : δ} {p : Place} {n : FileName} {bytes : Bytes}

/-- The files that the migration takes: of the pending directory those with 64-byte
    names, of the two others all. -/
def Taken (p : Place) (n : FileName) : Prop := p = .pending → n.length = 64

/-- A file that the migration takes holds the descriptor. -/
def OnDisk (codec : DescriptorCodec δ) (s : Disk δ) (d : δ) : Prop :=
  ∃ p n bytes, Taken p n ∧ fileAt s p n = some bytes ∧ Contains codec bytes d

/-- A sequence of descriptors that were there at first. -/
def Original (codec : DescriptorCodec δ) (s₀ : Disk δ) (bytes : Bytes) : Prop :=
  ∃ ds, bytes = encodeAll codec ds ∧ ∀ d ∈ ds, OnDisk codec s₀ d

/-- What holds between two steps of any attempt. -/
structure Survived (codec : DescriptorCodec δ) (s₀ s : Disk δ) : Prop where
  apart : Apart s
  whole : ∀ p n bytes, p ≠ .spendable → Taken p n → fileAt s p n = some bytes →
    Original codec s₀ bytes
  front : ∀ n bytes, fileAt s .spendable n = some bytes →
    ∃ all, bytes <+: all ∧ Original codec s₀ all
  kept : ∀ d, OnDisk codec s₀ d → d ∈ s.tracked ∨ OnDisk codec s d
  earlier : s₀.tracked ⊆ s.tracked
  only : ∀ d ∈ s.tracked, d ∈ s₀.tracked ∨ OnDisk codec s₀ d
  done : s.sentinel = true → ∀ d, OnDisk codec s₀ d → d ∈ s.tracked

/-- Only pending files are chosen by the length of their name. -/
theorem taken_of_ne (hp : p ≠ .pending) (n : FileName) : Taken p n := fun h => absurd h hp

/-- At first, nothing has been lost and nothing added. -/
theorem survived_start (hwf : AllWellFormed codec s₀) (hapart : Apart s₀)
    (hnew : s₀.sentinel = false) : Survived codec s₀ s₀ := by
  have horiginal (p : Place) (n : FileName) (bytes : Bytes) (hp : Taken p n)
      (hfile : fileAt s₀ p n = some bytes) : Original codec s₀ bytes := by
    obtain ⟨ds, rfl⟩ := hwf p n bytes hfile
    exact ⟨ds, rfl, fun d hd => ⟨p, n, _, hp, hfile, ds, rfl, hd⟩⟩
  refine ⟨hapart, fun p n bytes _ => horiginal p n bytes, fun n bytes hfile => ?_,
    fun d hd => Or.inr hd, fun _ hd => hd, fun d hd => Or.inl hd, fun h => ?_⟩
  · exact ⟨bytes, List.prefix_rfl,
      horiginal .spendable n bytes (taken_of_ne (by rintro ⟨⟩) n) hfile⟩
  · cases hnew.symm.trans h

/-! ## Moving -/

/-- Moving files loses no descriptor. -/
theorem survived_moved {rest : List FileName} (hu : Survived codec s₀ u)
    (hs : Moved u rest s) : Survived codec s₀ s where
  apart := by
    intro k
    rw [hs.pending k, hs.processing k]
    split
    · exact Or.inl rfl
    · exact hu.apart k
  whole := by
    intro p k bytes hp htaken hfile
    cases p with
    | spendable => exact absurd rfl hp
    | pending =>
        rw [hs.pending k] at hfile
        split at hfile
        · cases hfile
        · exact hu.whole _ k bytes hp htaken hfile
    | processing =>
        rw [hs.processing k] at hfile
        split at hfile
        · rename_i hk
          rcases Option.or_eq_some_iff.mp hfile with hpend | ⟨-, hproc⟩
          · exact hu.whole .pending k bytes (by rintro ⟨⟩) (fun _ => hk.1) hpend
          · exact hu.whole _ k bytes hp htaken hproc
        · exact hu.whole _ k bytes hp htaken hfile
  front := fun k bytes hfile => hu.front k bytes ((hs.spendable k).symm.trans hfile)
  kept := by
    intro d hd
    rcases hu.kept d hd with htr | ⟨p, k, bytes, htaken, hfile, hcont⟩
    · exact Or.inl (hs.tracked ▸ htr)
    · refine Or.inr ?_
      cases p with
      | spendable =>
          exact ⟨.spendable, k, bytes, htaken, (hs.spendable k).trans hfile, hcont⟩
      | pending =>
          -- it has moved, or its turn has not come
          by_cases hk : k ∈ rest
          · refine ⟨.pending, k, bytes, htaken, ?_, hcont⟩
            rw [hs.pending k, if_neg (fun h => h.2 hk)]
            exact hfile
          · refine ⟨.processing, k, bytes, taken_of_ne (by rintro ⟨⟩) k, ?_, hcont⟩
            rw [hs.processing k, if_pos ⟨htaken rfl, hk⟩, hfile]
            rfl
      | processing =>
          have hfree : fileAt u .pending k = none :=
            (hu.apart k).resolve_right (ne_of_eq_of_ne hfile (Option.some_ne_none bytes))
          refine ⟨.processing, k, bytes, htaken, ?_, hcont⟩
          rw [hs.processing k, hfree, Option.none_or, ite_self]
          exact hfile
  earlier := fun d hd => hs.tracked ▸ hu.earlier hd
  only := fun d hd => hu.only d (hs.tracked ▸ hd)
  done := fun h d hd => hs.tracked ▸ hu.done (hs.sentinel ▸ h) d hd

/-! ## Joining -/

theorem original_nil : Original codec s₀ [] := ⟨[], rfl, fun _ h => nomatch h⟩

theorem original_append {bytes' : Bytes} (h : Original codec s₀ bytes)
    (h' : Original codec s₀ bytes') : Original codec s₀ (bytes ++ bytes') := by
  obtain ⟨ds, rfl, hds⟩ := h
  obtain ⟨es, rfl, hes⟩ := h'
  refine ⟨ds ++ es, (encodeAll_append ds es).symm, fun d hd => ?_⟩
  rcases List.mem_append.mp hd with hleft | hright
  · exact hds d hleft
  · exact hes d hright

theorem original_flatMap {L : List FileName} {f : FileName → Bytes}
    (h : ∀ n ∈ L, Original codec s₀ (f n)) : Original codec s₀ (L.flatMap f) := by
  induction L with
  | nil => exact original_nil
  | cons x rest ih =>
      rw [List.flatMap_cons]
      exact original_append (h x List.mem_cons_self)
        (ih fun n hn => h n (List.mem_cons_of_mem _ hn))

/-- Descriptors that were there are whole. -/
theorem Original.wellFormed (h : Original codec s₀ bytes) : WellFormed codec bytes := by
  obtain ⟨ds, hds, -⟩ := h
  exact ⟨ds, hds⟩

/-- The content of each processing file, as the joining pass reads it. -/
private theorem processing_original {m : Dir} (hs : Survived codec s₀ s)
    (hdir : s.dirs .processing = some m) (k : FileName) :
    Original codec s₀ ((m[k]?).getD []) := by
  cases hk : m[k]? with
  | none => exact original_nil
  | some bytes =>
      refine hs.whole .processing k bytes (by rintro ⟨⟩) (taken_of_ne (by rintro ⟨⟩) k) ?_
      rw [fileAt, hdir]
      exact hk

/-- What is joined was there at first. -/
theorem joinedBytes_original (hc : NoFailures c) (hs : Survived codec s₀ s) :
    Original codec s₀ (joinedBytes c s) := by
  rw [joinedBytes]
  cases hdir : s.dirs .processing with
  | none => exact original_nil
  | some m =>
      simp only [readProcessing_eq hc]
      exact original_flatMap fun k _ => processing_original hs hdir k

theorem joinedBytes_contains (hc : NoFailures c) (hs : Survived codec s₀ s)
    (hd : InDir codec s .processing d) : Contains codec (joinedBytes c s) d := by
  obtain ⟨k, bytes, hfile, hcont⟩ := hd
  obtain ⟨m, hdir, hget⟩ := Option.bind_eq_some_iff.mp hfile
  have hmem : m[k]? = some bytes := hget
  rw [joinedBytes, hdir]
  simp only [readProcessing_eq hc]
  refine (contains_flatMap fun n _ => (processing_original hs hdir n).wellFormed).mpr
    ⟨k, mem_listing hmem, ?_⟩
  rw [hmem]
  exact hcont

/-- A new file of `spendable_outputs` with the front of original bytes. -/
theorem survived_grown {all : Bytes} (hs : Survived codec s₀ s)
    (hfresh : fileAt s .spendable n = none) (hfront : bytes <+: all)
    (hall : Original codec s₀ all) (ht : Grown s n bytes t) : Survived codec s₀ t where
  apart := by
    intro k
    rw [ht.files, ht.files, if_neg (by simp), if_neg (by simp)]
    exact hs.apart k
  whole := by
    intro p k bytes' hp htaken hfile
    rw [ht.files, if_neg (fun h => hp h.1)] at hfile
    exact hs.whole p k bytes' hp htaken hfile
  front := by
    intro k bytes' hfile
    rw [ht.files] at hfile
    split at hfile
    · obtain rfl := Option.some.inj hfile
      exact ⟨all, hfront, hall⟩
    · exact hs.front k bytes' hfile
  kept := by
    intro d hd
    rcases hs.kept d hd with htr | ⟨p, k, bytes', htaken, hfile, hcont⟩
    · exact Or.inl (ht.tracked ▸ htr)
    · refine Or.inr ⟨p, k, bytes', htaken, ?_, hcont⟩
      rw [ht.files, if_neg]
      · exact hfile
      · rintro ⟨rfl, rfl⟩
        cases hfresh.symm.trans hfile
  earlier := fun d hd => ht.tracked ▸ hs.earlier hd
  only := fun d hd => hs.only d (ht.tracked ▸ hd)
  done := fun h d hd => ht.tracked ▸ hs.done (ht.sentinel ▸ h) d hd

/-- Everything is accepted or in `spendable_outputs`. -/
def Collected (codec : DescriptorCodec δ) (s₀ s : Disk δ) : Prop :=
  ∀ d, OnDisk codec s₀ d → d ∈ s.tracked ∨ InDir codec s .spendable d

/-- Once everything is in `spendable_outputs`, the processing files may go. -/
theorem survived_shrunk (hs : Survived codec s₀ s) (hcoll : Collected codec s₀ s)
    (ht : Shrunk .processing s t) : Survived codec s₀ t ∧ Collected codec s₀ t := by
  have hspend (k : FileName) : fileAt t .spendable k = fileAt s .spendable k :=
    ht.others .spendable k (by rintro ⟨⟩)
  have hpend (k : FileName) : fileAt t .pending k = fileAt s .pending k :=
    ht.others .pending k (by rintro ⟨⟩)
  have hcoll' : Collected codec s₀ t := by
    intro d hd
    rcases hcoll d hd with htr | ⟨k, bytes, hfile, hcont⟩
    · exact Or.inl (ht.tracked ▸ htr)
    · exact Or.inr ⟨k, bytes, (hspend k).trans hfile, hcont⟩
  refine ⟨⟨fun k => ?_, ?_, ?_, fun d hd => ?_, ?_, ?_, ?_⟩, hcoll'⟩
  · rw [hpend]
    refine (hs.apart k).imp_right fun hnone => ?_
    cases hk : fileAt t .processing k with
    | none => rfl
    | some bytes => cases hnone.symm.trans (ht.files k bytes hk)
  · intro p k bytes hp htaken hfile
    by_cases hproc : p = .processing
    · subst hproc
      exact hs.whole _ k bytes hp htaken (ht.files k bytes hfile)
    · exact hs.whole p k bytes hp htaken ((ht.others p k hproc).symm.trans hfile)
  · exact fun k bytes hfile => hs.front k bytes ((hspend k).symm.trans hfile)
  · exact (hcoll' d hd).imp_right fun ⟨k, bytes, hfile, hcont⟩ =>
      ⟨.spendable, k, bytes, taken_of_ne (by rintro ⟨⟩) k, hfile, hcont⟩
  · exact fun d hd => ht.tracked ▸ hs.earlier hd
  · exact fun d hd => hs.only d (ht.tracked ▸ hd)
  · exact fun h d hd => ht.tracked ▸ hs.done (ht.sentinel ▸ h) d hd

/-- After the move, what is left to join is in the processing directory. -/
theorem moved_onDisk (hs : Moved u [] s) (hd : OnDisk codec s d) :
    InDir codec s .processing d ∨ InDir codec s .spendable d := by
  obtain ⟨p, k, bytes, htaken, hfile, hcont⟩ := hd
  cases p with
  | pending =>
      rw [hs.pending k, if_pos ⟨htaken rfl, fun h => nomatch h⟩] at hfile
      cases hfile
  | processing => exact Or.inl ⟨k, bytes, hfile, hcont⟩
  | spendable => exact Or.inr ⟨k, bytes, hfile, hcont⟩

/-- Once the new file is written everything has survived, and is collected in one
    directory. -/
theorem gathered_survived (hc : NoFailures c) (hfresh : FreshKey c u)
    (hu : Survived codec s₀ u) (hv : Gathered c u v) :
    Survived codec s₀ v ∧ Collected codec s₀ v := by
  rcases hv with ⟨hv, hnil⟩ | ⟨s, t, hs, ht, hv⟩
  · have hsurv := survived_moved hu hv
    refine ⟨hsurv, fun d hd => (hsurv.kept d hd).imp_right fun hdisk => ?_⟩
    -- a processing file with a descriptor in it would have been joined
    refine (moved_onDisk hv hdisk).resolve_left fun hproc => ?_
    exact contains_ne_nil (joinedBytes_contains hc hsurv hproc) hnil
  · have hsurv := survived_moved hu hs
    have hkey : fileAt s .spendable c.key = none := (hs.spendable _).trans hfresh.1
    have hsurv' := survived_grown hsurv hkey List.prefix_rfl
      (joinedBytes_original hc hsurv) ht
    refine survived_shrunk hsurv' (fun d hd => ?_) hv
    rcases hsurv.kept d hd with htr | hdisk
    · exact Or.inl (ht.tracked ▸ htr)
    refine Or.inr ?_
    rcases moved_onDisk hs hdisk with hproc | ⟨k, bytes, hfile, hcont⟩
    · exact ⟨c.key, _, by rw [ht.files, if_pos ⟨rfl, rfl⟩],
        joinedBytes_contains hc hsurv hproc⟩
    · refine ⟨k, bytes, ?_, hcont⟩
      rw [ht.files, if_neg]
      · exact hfile
      · rintro ⟨-, rfl⟩
        cases hkey.symm.trans hfile

theorem gathering_survived (hc : NoFailures c) (hfresh : FreshKey c u)
    (hu : Survived codec s₀ u) (hv : Gathering c u v) : Survived codec s₀ v := by
  rcases hv with hv | ⟨s, i, hs, ht⟩ | hv
  · exact survived_moved hu hv
  · have hsurv := survived_moved hu hs
    exact survived_grown hsurv ((hs.spendable _).trans hfresh.2) (List.take_prefix i _)
      (joinedBytes_original hc hsurv) ht
  · exact (gathered_survived hc hfresh hu (Or.inr hv)).1

/-! ## Tracking -/

/-- A whole file is read to its end. -/
theorem scan_contains (h : Contains codec bytes d) : d ∈ scan codec.read bytes := by
  obtain ⟨ds, rfl, hd⟩ := h
  rwa [scan_of_whole codec.read_suffix (whole_encodeAll codec ds)]

/-- Of the front of original bytes only original descriptors are read. -/
theorem scan_original {all : Bytes} (hself : SelfDelimiting codec.read)
    (hfront : bytes <+: all) (hall : Original codec s₀ all)
    (hd : d ∈ scan codec.read bytes) : OnDisk codec s₀ d := by
  obtain ⟨ds, rfl, hds⟩ := hall
  obtain ⟨rest, hsteps, -⟩ := scan_steps codec.read_suffix bytes
  have hfirst := (whole_encodeAll codec ds).of_front hself codec.read_suffix hfront hsteps
  exact hds d (hfirst.subset hd)

/-- **ACCEPTED**: the sweeper has everything, and nothing else. -/
theorem accepted_survived (hself : SelfDelimiting codec.read) (hc : NoFailures c)
    (hv : Survived codec s₀ v) (hcoll : Collected codec s₀ v) (hs : Accepted codec c v s) :
    Survived codec s₀ s ∧ ∀ d, OnDisk codec s₀ d → d ∈ s.tracked := by
  -- what was collected is in a file that the pass reads to its end
  have hall : ∀ d, OnDisk codec s₀ d → d ∈ s.tracked := by
    intro d hd
    rw [hs.tracked]
    rcases hcoll d hd with htr | ⟨k, bytes, hfile, hcont⟩
    · exact List.mem_append_left _ htr
    · exact List.mem_append_right _ ((mem_outputs hc).mpr
        ⟨k, bytes, hfile, scan_contains hcont⟩)
  refine ⟨⟨fun k => ?_, ?_, ?_, fun d hd => Or.inl (hall d hd), fun d hd => ?_,
    fun d hd => ?_, fun _ => hall⟩, hall⟩
  · refine (hv.apart k).imp (fun hnone => ?_) fun hnone => (hs.processing k).trans hnone
    cases hk : fileAt s .pending k with
    | none => rfl
    | some bytes => cases hnone.symm.trans (hs.files _ k bytes hk)
  · exact fun p k bytes hp htaken hfile => hv.whole p k bytes hp htaken (hs.files p k bytes hfile)
  · exact fun k bytes hfile => hv.front k bytes (hs.files _ k bytes hfile)
  · exact hs.tracked ▸ List.mem_append_left _ (hv.earlier hd)
  · rw [hs.tracked] at hd
    rcases List.mem_append.mp hd with htr | hout
    · exact hv.only d htr
    · obtain ⟨k, bytes, hfile, hscan⟩ := (mem_outputs hc).mp hout
      obtain ⟨all, hfront, horiginal⟩ := hv.front k bytes hfile
      exact Or.inr (scan_original hself hfront horiginal hscan)

/-- **EVERY STAGE SURVIVES**: what holds before an attempt holds wherever it is cut. -/
theorem stage_survived (hself : SelfDelimiting codec.read) (hc : NoFailures c)
    (hfresh : FreshKey c u) (hu : Survived codec s₀ u) (hs : Stage codec c u s) :
    Survived codec s₀ s := by
  cases hs with
  | moving rest h => exact survived_moved hu h
  | gathering h => exact gathering_survived hc hfresh hu h
  | accepted v hv h =>
      obtain ⟨hsurv, hcoll⟩ := gathered_survived hc hfresh hu hv
      exact (accepted_survived hself hc hsurv hcoll h).1

/-- A state with no directory has everything accepted. -/
theorem survived_empty (hs : Survived codec s₀ s) (hdirs : ∀ p, s.dirs p = none)
    (hd : OnDisk codec s₀ d) : d ∈ s.tracked := by
  refine (hs.kept d hd).resolve_right ?_
  rintro ⟨p, k, bytes, -, hfile, -⟩
  rw [fileAt, hdirs p] at hfile
  cases hfile

/-- What a complete attempt comes to, from any point of any run. -/
theorem tryMigrate_complete (hself : SelfDelimiting codec.read) (hc : NoFailures c)
    (hfresh : FreshKey c u) (hu : Survived codec s₀ u) :
    Holds (fun s => s = u) (tryMigrate c codec)
      (fun r s => (∃ n, r = .ok n) ∧ s.sentinel = true ∧ Survived codec s₀ s)
      (Survived codec s₀) := by
  cases hsent : u.sentinel with
  | true =>
      rintro s rfl
      rw [tryMigrate_done (hc.stat none) hsent]
      exact ⟨⟨⟨0, rfl⟩, hsent, hu⟩, fun _ h => nomatch h⟩
  | false =>
      by_cases hdirs : ∃ p, u.dirs p ≠ none
      · refine holds_weaken (tryMigrate_stages hc hfresh hsent hdirs) (fun _ h => h)
          (fun r s ⟨hr, hs, v, hv, hacc⟩ => ⟨hr, hs, ?_⟩)
          (fun s hs => stage_survived hself hc hfresh hu hs)
        exact stage_survived hself hc hfresh hu (.accepted v hv hacc)
      · have hnone (p : Place) : u.dirs p = none :=
          Classical.byContradiction fun h => hdirs ⟨p, h⟩
        rintro s rfl
        -- no directory is left, so everything has been accepted already
        have hall (d : δ) (hd : OnDisk codec s₀ d) : d ∈ s.tracked :=
          survived_empty hu hnone hd
        have hwritten : Survived codec s₀ { s with sentinel := true } :=
          ⟨hu.apart, hu.whole, hu.front, hu.kept, hu.earlier, hu.only,
            fun _ => hall⟩
        rw [tryMigrate_empty hc hsent hnone]
        refine ⟨⟨⟨0, rfl⟩, rfl, hwritten⟩, fun t ht => ?_⟩
        rw [List.mem_singleton.mp ht]
        exact hwritten

/-! ## Whole runs -/

/-- In an attempt nothing fails but the process, and the random name of the joined
    file is new. -/
def OnlyCrashes (s : Disk δ) : MigrationCalls × Option Nat → Prop
  | (c, _) => NoFailures c ∧ FreshKey c s

theorem attempts_survived (hself : SelfDelimiting codec.read)
    (hrun : Reach (attempt fun c => tryMigrate c codec) OnlyCrashes s₀ s)
    (h₀ : Survived codec s₀ s₀) : Survived codec s₀ s := by
  refine reach_invariant ?_ hrun h₀
  rintro u ⟨c, cut⟩ t hu ⟨hc, hfresh⟩ hstep
  exact attempt_holds (q := fun c => tryMigrate c codec)
    (holds_weaken (tryMigrate_complete hself hc hfresh hu) (fun _ h => h)
      (fun _ _ h => h.2.2) (fun _ h => h)) rfl hstep

/-- **CRASHES SURVIVED**: after any sequence of attempts, each cut by a crash after
    any of its steps, an attempt that runs to its end returns `Ok`, leaves the sentinel,
    and the sweeper has then accepted exactly the descriptors that were there at first;
    an attempt that finds the sentinel returns `Ok(0)` and changes nothing. -/
theorem migration_survives_crashes (codec : DescriptorCodec δ)
    (hself : SelfDelimiting codec.read) (s₀ s : Disk δ) (hwf : AllWellFormed codec s₀)
    (hapart : Apart s₀) (hnew : s₀.sentinel = false)
    (hrun : Reach (attempt fun c => tryMigrate c codec) OnlyCrashes s₀ s) :
    (∀ c, NoFailures c → FreshKey c s →
      (∃ n, (tryMigrate c codec s).value = .ok n) ∧
        (tryMigrate c codec s).final.sentinel = true ∧
        ∀ d, d ∈ (tryMigrate c codec s).final.tracked ↔
          d ∈ s₀.tracked ∨ OnDisk codec s₀ d) ∧
      (s.sentinel = true → ∀ c, c.statFails none = false →
        tryMigrate c codec s = ⟨.ok 0, s, []⟩) := by
  have hs := attempts_survived hself hrun (survived_start hwf hapart hnew)
  refine ⟨fun c hc hfresh => ?_, fun hsent c hstat => tryMigrate_done hstat hsent⟩
  obtain ⟨⟨hvalue, hsent, hfinal⟩, -⟩ := tryMigrate_complete hself hc hfresh hs s rfl
  refine ⟨hvalue, hsent, fun d => ⟨hfinal.only d, ?_⟩⟩
  rintro (htr | hd)
  · exact hfinal.earlier htr
  · exact hfinal.done hsent d hd

theorem byteCodec_selfDelimiting : SelfDelimiting byteCodec.read := by
  intro bytes d rest more h
  cases bytes with
  | nil => cases h
  | cons b tail =>
      obtain ⟨rfl, rfl⟩ := Prod.mk.inj (Option.some.inj h)
      rfl

/-- With any name for the new file no call fails. -/
theorem allSucceed_noFailures (key : FileName) :
    NoFailures { allSucceed with key := key } where
  stat := fun _ => rfl
  readDir := fun _ => rfl
  entry := fun _ _ => rfl
  createDir := fun _ => rfl
  rename := fun _ => rfl
  readFile := fun _ => rfl
  persist := rfl
  openFile := fun _ => rfl
  metadata := fun _ => rfl
  position := fun _ _ => rfl
  decode := fun _ _ => rfl
  track := rfl
  unlink := fun _ _ => rfl
  rmdir := fun _ => rfl
  sentinel := rfl

/-- A crash after the first of two bytes of the joined file, then a whole attempt under
    a new name. -/
theorem migration_survives_tornWrite :
    ∃ s : Disk UInt8, Reach (attempt fun c => tryMigrate c byteCodec) OnlyCrashes
        (onePending (List.replicate 64 0x63)) s ∧
      fileAt s .spendable (temporaryName (List.replicate 64 0x61)) = some [7] ∧
      ∀ d, d ∈ (tryMigrate { allSucceed with key := List.replicate 64 0x62 } byteCodec
          s).final.tracked ↔
        d ∈ [] ∨ OnDisk byteCodec (onePending (List.replicate 64 0x63)) d := by
  have hcheck : (attempt (fun c => tryMigrate c byteCodec)
      (onePending (List.replicate 64 0x63)) (allSucceed, some 4)).any
      (fun s => decide (fileAt s .spendable (temporaryName (List.replicate 64 0x61)) = some [7] ∧
        fileAt s .spendable (List.replicate 64 0x62) = none ∧
        fileAt s .spendable (temporaryName (List.replicate 64 0x62)) = none)) = true := by
    decide +kernel
  obtain ⟨s, hs, hs'⟩ := (Option.any_eq_true _ _).mp hcheck
  obtain ⟨htorn, hkey, htemp⟩ := of_decide_eq_true hs'
  have hstart := onePending_start (List.replicate 64 0x63)
  have hrun : Reach (attempt fun c => tryMigrate c byteCodec) OnlyCrashes
      (onePending (List.replicate 64 0x63)) s :=
    reach_step (a := (allSucceed, some 4)) ⟨allSucceed_noFailures _, hstart.fresh⟩ hs
  have hdone := migration_survives_crashes byteCodec byteCodec_selfDelimiting _ s
    hstart.wellFormed hstart.apart rfl hrun
  exact ⟨s, hrun, htorn, (hdone.1 _ (allSucceed_noFailures _) ⟨hkey, htemp⟩).2.2⟩

end SweepCrash
