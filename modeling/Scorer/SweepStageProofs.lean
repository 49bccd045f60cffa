import Scorer.SweepMigrationProofs

/-! # The stages of an attempt without failures

    When no operation fails, an attempt can be cut only by a crash, and every state
    it passes through is in one of four stages: some pending files have moved, the
    concatenation is being written, the processing files are going, and after the
    sweeper has accepted the outputs the two other directories are going.

    * `MovedBy`, `Grown`, `Shrunk` say what a pass has done to the files, for any
      content;
    * `Stage` puts them together, and `tryMigrate_stages` is the one lemma about the
      attempt that what survives a crash, and what is handed over, follow from. -/

namespace SweepStage

open CrashProgram SweepFiles DescriptorFile SweepMigration SelfDelimited

variable {δ : Type} {codec : DescriptorCodec δ} {c : MigrationCalls} {s t u v : Disk δ}
  {d : δ} {p q : Place} {n k : FileName} {bytes : Bytes} {goes : FileName → Prop}
  [DecidablePred goes]

/-- No operation of the attempt fails. -/
structure NoFailures (c : MigrationCalls) : Prop where
  stat : ∀ p, c.statFails p = false
  readDir : ∀ pass, c.readDirFails pass = false
  entry : ∀ pass n, c.entryFails pass n = false
  createDir : ∀ n, c.createDirFails n = false
  rename : ∀ n, c.renameFails n = false
  readFile : ∀ n, c.readFails n = false
  persist : c.persistFails = none
  openFile : ∀ n, c.openFails n = false
  metadata : ∀ n, c.metadataFails n = false
  position : ∀ n pos, c.positionFails n pos = false
  decode : ∀ n pos, c.decodeFails n pos = false
  track : c.trackFails = false
  unlink : ∀ pass n, c.unlinkFails pass n = false
  rmdir : ∀ pass, c.rmdirFails pass = false
  sentinel : c.sentinelFails = none

/-! ## What a pass does to the files -/

/-- The pending files that `goes` picks, and whose names are not in `rest`, have
    moved. -/
structure MovedBy (goes : FileName → Prop) [DecidablePred goes] (u : Disk δ)
    (rest : List FileName) (s : Disk δ) : Prop where
  tracked : s.tracked = u.tracked
  sentinel : s.sentinel = u.sentinel
  pending : ∀ n, fileAt s .pending n =
    if goes n ∧ n ∉ rest then none else fileAt u .pending n
  processing : ∀ n, fileAt s .processing n =
    if goes n ∧ n ∉ rest then (fileAt u .pending n).or (fileAt u .processing n)
    else fileAt u .processing n
  spendable : ∀ n, fileAt s .spendable n = fileAt u .spendable n

/-- The 64-byte names of the pending directory that are not in `rest` have moved. -/
abbrev Moved (u : Disk δ) : List FileName → Disk δ → Prop :=
  MovedBy (fun n => n.length = 64) u

/-- The file `n` of `spendable_outputs` has been written. -/
structure Grown (u : Disk δ) (n : FileName) (bytes : Bytes) (s : Disk δ) : Prop where
  tracked : s.tracked = u.tracked
  sentinel : s.sentinel = u.sentinel
  files : ∀ q k, fileAt s q k =
    if q = .spendable ∧ k = n then some bytes else fileAt u q k

/-- Files of the directory `p` have been removed. -/
structure Shrunk (p : Place) (u s : Disk δ) : Prop where
  tracked : s.tracked = u.tracked
  sentinel : s.sentinel = u.sentinel
  others : ∀ q k, q ≠ p → fileAt s q k = fileAt u q k
  files : ∀ k bytes, fileAt s p k = some bytes → fileAt u p k = some bytes

theorem shrunk_refl (p : Place) (u : Disk δ) : Shrunk p u u :=
  ⟨rfl, rfl, fun _ _ _ => rfl, fun _ _ h => h⟩

theorem shrunk_unlink (h : Shrunk p u s) (n : FileName) : Shrunk p u (unlink p n s) where
  tracked := h.tracked
  sentinel := h.sentinel
  others := fun q k hq => by
    rw [fileAt_unlink, if_neg (fun h' => hq h'.1)]
    exact h.others q k hq
  files := fun k bytes hk => by
    rw [fileAt_unlink] at hk
    split at hk
    · cases hk
    · exact h.files k bytes hk

theorem shrunk_rmdir (h : Shrunk p u s) : Shrunk p u (rmdir p s) where
  tracked := h.tracked
  sentinel := h.sentinel
  others := fun q k hq => by
    rw [fileAt_rmdir, if_neg hq]
    exact h.others q k hq
  files := fun k bytes hk => by
    rw [fileAt_rmdir, if_pos rfl] at hk
    cases hk

/-- Removing a directory removes files of it, wherever it stops. -/
theorem removeDir_shrunk (pass : Pass) :
    Holds (Shrunk p u) (removeDir c pass p) (fun _ => Shrunk p u) (Shrunk p u) :=
  removeDir_keeps (P := Shrunk p u) (fun n _ h => shrunk_unlink h n)
    (fun _ h => shrunk_rmdir h) pass

/-! ## Moving -/

theorem moved_of_same {rest : List FileName} (hs : MovedBy goes u rest s)
    (htracked : t.tracked = s.tracked) (hsentinel : t.sentinel = s.sentinel)
    (hfiles : ∀ p n, fileAt t p n = fileAt s p n) : MovedBy goes u rest t where
  tracked := htracked.trans hs.tracked
  sentinel := hsentinel.trans hs.sentinel
  pending := fun n => (hfiles _ n).trans (hs.pending n)
  processing := fun n => (hfiles _ n).trans (hs.processing n)
  spendable := fun n => (hfiles _ n).trans (hs.spendable n)

/-- The names ahead that matter may lose one that does not. -/
theorem moved_skip {rest : List FileName} (hs : MovedBy goes u (n :: rest) s)
    (hskip : goes n → fileAt u .pending n = none) : MovedBy goes u rest s := by
  have hcond (k : FileName) (hk : ¬ (k = n ∧ goes n ∧ n ∉ rest)) :
      (goes k ∧ k ∉ n :: rest) ↔ (goes k ∧ k ∉ rest) := by
    rw [List.mem_cons, not_or]
    constructor
    · exact fun h => ⟨h.1, h.2.2⟩
    · exact fun h => ⟨h.1, fun hkn => hk ⟨hkn, hkn ▸ h.1, hkn ▸ h.2⟩, h.2⟩
  refine ⟨hs.tracked, hs.sentinel, fun k => ?_, fun k => ?_, hs.spendable⟩
  · rw [hs.pending k]
    by_cases hk : k = n ∧ goes n ∧ n ∉ rest
    · obtain ⟨rfl, hgoes, hrest⟩ := hk
      simp [hgoes, hrest, hskip hgoes]
    · simp only [hcond k hk]
  · rw [hs.processing k]
    by_cases hk : k = n ∧ goes n ∧ n ∉ rest
    · obtain ⟨rfl, hgoes, hrest⟩ := hk
      simp [hgoes, hrest, hskip hgoes]
    · simp only [hcond k hk]

/-- One rename. -/
theorem moved_rename {rest : List FileName} (hs : MovedBy goes u (n :: rest) s)
    (hgoes : goes n) (hnew : n ∉ rest) (hdir : (s.dirs .processing).isSome) :
    MovedBy goes u rest (renameFile .pending n .processing n s) := by
  have hpend : fileAt s .pending n = fileAt u .pending n := by
    rw [hs.pending n, if_neg (fun h => h.2 List.mem_cons_self)]
  cases hfile : fileAt s .pending n with
  | none =>
      rw [renameFile, hfile]
      exact moved_skip hs fun _ => hpend.symm.trans hfile
  | some bytes =>
      have hat := fileAt_renameFile n hfile hdir
      have hu : fileAt u .pending n = some bytes := hpend.symm.trans hfile
      have hother (k : FileName) (hk : k ≠ n) :
          (goes k ∧ k ∉ n :: rest) ↔ (goes k ∧ k ∉ rest) := by
        rw [List.mem_cons, not_or]
        exact ⟨fun h => ⟨h.1, h.2.2⟩, fun h => ⟨h.1, hk, h.2⟩⟩
      refine ⟨?_, ?_, fun k => ?_, fun k => ?_, fun k => ?_⟩
      · exact (renameFile_rest _ _ _ _ _).1.trans hs.tracked
      · exact (renameFile_rest _ _ _ _ _).2.trans hs.sentinel
      · rw [hat, if_neg (by simp)]
        by_cases hk : k = n
        · subst hk
          rw [if_pos ⟨rfl, rfl⟩, if_pos ⟨hgoes, hnew⟩]
        · rw [if_neg (fun h => hk h.2), hs.pending k]
          simp only [hother k hk]
      · rw [hat]
        by_cases hk : k = n
        · subst hk
          rw [if_pos ⟨rfl, rfl⟩, if_pos ⟨hgoes, hnew⟩, hu]
          rfl
        · rw [if_neg (fun h => hk h.2), if_neg (by simp), hs.processing k]
          simp only [hother k hk]
      · rw [hat, if_neg (by simp), if_neg (by simp)]
        exact hs.spendable k

/-- One entry more has moved, if its name is of the length asked for. -/
theorem moveEntry_moved (hc : NoFailures c) (n : FileName) (rest : List FileName) :
    Holds (fun s => (n :: rest).Nodup ∧ Moved u (n :: rest) s) (moveEntry c n)
      (onExcept (fun _ s => rest.Nodup ∧ Moved u rest s) fun (_ : MigrationError) _ => False)
      (fun s => ∃ rest, Moved u rest s) := by
  unfold moveEntry
  rw [if_neg (by simp [hc.entry])]
  refine holds_ite (fun hlen => holds_pure fun s hs => ?_) fun hlen => ?_
  · exact ⟨(List.nodup_cons.mp hs.1).2, moved_skip hs.2 fun h => absurd h hlen⟩
  rw [if_neg (by simp [hc.createDir]), if_neg (by simp [hc.rename])]
  refine holds_bind (Q := fun _ s => ((n :: rest).Nodup ∧ Moved u (n :: rest) s) ∧
    (s.dirs .processing).isSome) (holds_act fun s hs => ?_) fun _ => ?_
  · have hsame : Moved u (n :: rest) (createDirAll .processing s) :=
      moved_of_same hs.2 rfl rfl fun p k => fileAt_createDirAll s .processing p k
    exact ⟨⟨⟨hs.1, hsame⟩, rfl⟩, _, hsame⟩
  · refine holds_bind (Q := fun _ s => rest.Nodup ∧ Moved u rest s)
      (holds_act fun s ⟨⟨hnodup, hs⟩, hdir⟩ => ?_) fun _ => holds_pure fun s hs => hs
    obtain ⟨hnew, hrest⟩ := List.nodup_cons.mp hnodup
    have hmoved := moved_rename hs (Classical.not_not.mp hlen) hnew hdir
    exact ⟨⟨hrest, hmoved⟩, _, hmoved⟩

theorem listing_nodup (order : List FileName) (m : Dir) : (listing order m).Nodup := by
  unfold listing
  split
  · rename_i hperm
    exact hperm.nodup_iff.mpr Std.ExtTreeMap.nodup_keys
  · exact Std.ExtTreeMap.nodup_keys

/-- Before the first entry nothing has moved. -/
theorem moved_start {rest : List FileName}
    (hall : ∀ n bytes, fileAt u .pending n = some bytes → n ∈ rest) : MovedBy goes u rest u := by
  have hnone (n : FileName) (hn : n ∉ rest) : fileAt u .pending n = none := by
    cases h : fileAt u .pending n with
    | none => rfl
    | some bytes => exact absurd (hall n bytes h) hn
  refine ⟨rfl, rfl, fun n => ?_, fun n => ?_, fun _ => rfl⟩
  · split
    · rename_i h
      exact hnone n h.2
    · rfl
  · split
    · rename_i h
      rw [hnone n h.2]
      rfl
    · rfl

/-- **MOVED**: every pending file with a 64-byte name is in the processing directory
    afterwards. -/
theorem movePending_moved (hc : NoFailures c) :
    Holds (fun s => s = u) (movePendingToProcessing c)
      (onExcept (fun _ => Moved u []) fun (_ : MigrationError) _ => False)
      (fun s => ∃ rest, Moved u rest s) := by
  refine holds_bind (holds_look (Q := fun dir s => s = u ∧ dir = u.dirs .pending)
    fun s hs => ⟨hs, by rw [hs]⟩) fun dir => ?_
  cases dir with
  | none =>
      refine holds_pure ?_
      rintro s ⟨rfl, hdir⟩
      refine moved_start fun n bytes hfile => ?_
      rw [fileAt, ← hdir] at hfile
      cases hfile
  | some m =>
      simp only [hc.readDir, Bool.false_eq_true, if_false]
      refine holds_weaken (holds_forEach (I := fun rest s => rest.Nodup ∧ Moved u rest s)
        (moveEntry_moved hc) _) ?_ ?_ (fun _ h => h)
      · rintro s ⟨rfl, hdir⟩
        refine ⟨listing_nodup _ m, moved_start fun n bytes hfile => ?_⟩
        rw [fileAt, ← hdir] at hfile
        exact mem_listing hfile
      · intro r s hr
        cases r with
        | ok u => exact hr.2
        | error e => exact hr

/-! ## Joining -/

/-- The bytes that the processing files come to. -/
def joinedBytes (c : MigrationCalls) (s : Disk δ) : Bytes :=
  match s.dirs .processing with
  | none => []
  | some m => readProcessing c m

/-- Where no call fails every listed file is read whole. -/
theorem readProcessing_eq (hc : NoFailures c) (m : Dir) :
    readProcessing c m
      = (listing (c.order .readProcessing) m).flatMap fun n => (m[n]?).getD [] := by
  simp only [readProcessing, hc.entry, hc.readFile, Bool.or_self, Bool.false_eq_true, if_false]

/-- A file under a name that is not in use. -/
theorem grown_putFile (hdir : (s.dirs .spendable).isSome) (n : FileName) (bytes : Bytes) :
    Grown s n bytes (putFile .spendable n bytes s) where
  tracked := rfl
  sentinel := rfl
  files := fun q k => fileAt_putFile s .spendable q n k bytes hdir

/-- Growing a file again and renaming it leave the state with the whole of it. -/
theorem grown_rename {temporary : FileName} (hdir : (s.dirs .spendable).isSome)
    (htemp : fileAt s .spendable temporary = none) (n : FileName) (bytes : Bytes) :
    Grown s n bytes (renameFile .spendable temporary .spendable n
      (putFile .spendable temporary bytes s)) where
  tracked := (renameFile_rest _ _ _ _ _).1
  sentinel := (renameFile_rest _ _ _ _ _).2
  files := fileAt_replace hdir htemp n bytes

/-- What the joining pass has done when it is over: nothing when there was nothing to
    join, else the joined file is there and processing files may be gone. -/
def Gathered (c : MigrationCalls) (u v : Disk δ) : Prop :=
  (Moved u [] v ∧ joinedBytes c v = []) ∨
    ∃ s t, Moved u [] s ∧ Grown s c.key (joinedBytes c s) t ∧ Shrunk .processing t v

/-- The states on the way there. -/
def Gathering (c : MigrationCalls) (u v : Disk δ) : Prop :=
  Moved u [] v ∨
    (∃ s i, Moved u [] s ∧
      Grown s (temporaryName c.key) ((joinedBytes c s).take i) v) ∨
    ∃ s t, Moved u [] s ∧ Grown s c.key (joinedBytes c s) t ∧ Shrunk .processing t v

/-- A write that has not come to its rename leaves a temporary file at most. -/
def Writing (P : Disk δ → Prop) (c : MigrationCalls) (bytes : Bytes) (t : Disk δ) : Prop :=
  P t ∨ ∃ s i, P s ∧ Grown s (temporaryName c.key) (bytes.take i) t

/-- The write has been done. -/
def Wrote (P : Disk δ → Prop) (c : MigrationCalls) (bytes : Bytes) (t : Disk δ) : Prop :=
  c.persistFails = none ∧ ∃ s, P s ∧ Grown s c.key bytes t

/-- A write from a state that an empty directory does not change and that has no file
    of the temporary name. -/
theorem persist_writes {P : Disk δ → Prop} (hcreate : ∀ s, P s → P (createDirAll .spendable s))
    (htemp : ∀ s, P s → fileAt s .spendable (temporaryName c.key) = none) (bytes : Bytes) :
    Holds P (persist c bytes)
      (onExcept (fun _ => Wrote P c bytes) fun _ t => c.persistFails ≠ none ∧ Writing P c bytes t)
      (fun t => Writing P c bytes t ∨ Wrote P c bytes t) := by
  have hdirectory : Holds P (act (createDirAll .spendable))
      (fun _ s => P s ∧ (s.dirs .spendable).isSome)
      (fun t => Writing P c bytes t ∨ Wrote P c bytes t) :=
    holds_act fun s hs => ⟨⟨hcreate s hs, rfl⟩, Or.inl (Or.inl (hcreate s hs))⟩
  -- the temporary file grows byte by byte, and a crash leaves any part of it
  have hgrow (n : Nat) : Holds (fun s : Disk δ => P s ∧ (s.dirs .spendable).isSome)
      (passing fun s => (List.range (n + 1)).map fun i =>
        putFile .spendable (temporaryName c.key) (bytes.take i) s)
      (fun _ t => ∃ s, (P s ∧ (s.dirs .spendable).isSome) ∧
        t = putFile .spendable (temporaryName c.key) (bytes.take n) s)
      (fun t => Writing P c bytes t ∨ Wrote P c bytes t) := by
    refine holds_passing fun s hs => ⟨⟨s, hs, by simp [List.range_succ]⟩, fun t ht => ?_⟩
    obtain ⟨i, -, rfl⟩ := List.mem_map.mp ht
    exact Or.inl (Or.inr ⟨s, i, hs.1, grown_putFile hs.2 _ _⟩)
  have hstop (n : Nat) (hfails : c.persistFails ≠ none) :
      Holds (fun t : Disk δ => ∃ s, (P s ∧ (s.dirs .spendable).isSome) ∧
          t = putFile .spendable (temporaryName c.key) (bytes.take n) s)
        (pure (.error .persist))
        (onExcept (fun (_ : Unit) => Wrote P c bytes)
          fun (_ : MigrationError) t => c.persistFails ≠ none ∧ Writing P c bytes t)
        (fun t => Writing P c bytes t ∨ Wrote P c bytes t) := by
    refine holds_pure ?_
    rintro t ⟨s, hs, rfl⟩
    exact ⟨hfails, Or.inr ⟨s, n, hs.1, grown_putFile hs.2 _ _⟩⟩
  unfold persist
  cases hpersist : c.persistFails with
  | some failure =>
      have hfails := Option.some_ne_none failure
      simp only [hpersist] at hstop
      cases failure with
      | directory => exact holds_pure fun s hs => ⟨hfails, Or.inl hs⟩
      | temporary n =>
          exact holds_bind hdirectory fun _ => holds_bind (hgrow n) fun _ => hstop n hfails
      | rename =>
          exact holds_bind hdirectory fun _ => holds_bind (hgrow _) fun _ => hstop _ hfails
  | none =>
      refine holds_bind hdirectory fun _ => holds_bind (hgrow _) fun _ => ?_
      refine holds_bind (Q := fun _ => Wrote P c bytes) (holds_act ?_)
        fun _ => holds_pure fun s hs => hs
      rintro t ⟨s, ⟨hs, hdir⟩, rfl⟩
      rw [List.take_length]
      -- only the renaming makes the bytes a file of the directory
      have hwrote : Wrote P c bytes _ :=
        ⟨hpersist, s, hs, grown_rename hdir (htemp s hs) c.key bytes⟩
      exact ⟨hwrote, Or.inr hwrote⟩

/-- The write of the joined file. -/
theorem persist_grown (hc : NoFailures c) (hfresh : FreshKey c u) (bytes : Bytes) :
    Holds (fun s => Moved u [] s ∧ joinedBytes c s = bytes) (persist c bytes)
      (onExcept (fun _ t => ∃ s, Moved u [] s ∧ Grown s c.key (joinedBytes c s) t)
        fun (_ : MigrationError) _ => False) (Gathering c u) := by
  let P (s : Disk δ) : Prop := Moved u [] s ∧ joinedBytes c s = bytes
  have hcreate (s : Disk δ) (hs : P s) : P (createDirAll .spendable s) :=
    ⟨moved_of_same hs.1 rfl rfl fun p k => fileAt_createDirAll s .spendable p k, hs.2⟩
  have htemp (s : Disk δ) (hs : P s) : fileAt s .spendable (temporaryName c.key) = none :=
    (hs.1.spendable _).trans hfresh.2
  have hwriting (t : Disk δ) (ht : Writing P c bytes t) : Gathering c u t := by
    rcases ht with ht | ⟨s, i, ⟨hs, hbytes⟩, ht⟩
    · exact Or.inl ht.1
    · exact Or.inr (Or.inl ⟨s, i, hs, hbytes ▸ ht⟩)
  have hwrote (t : Disk δ) (ht : Wrote P c bytes t) :
      ∃ s, Moved u [] s ∧ Grown s c.key (joinedBytes c s) t := by
    obtain ⟨-, s, ⟨hs, hbytes⟩, ht⟩ := ht
    exact ⟨s, hs, hbytes ▸ ht⟩
  refine holds_weaken (persist_writes hcreate htemp bytes) (fun _ h => h) (fun r t ht => ?_)
    fun t ht => ?_
  · cases r with
    | ok _ => exact hwrote t ht
    | error e => exact absurd hc.persist ht.1
  · rcases ht with ht | ht
    · exact hwriting t ht
    · obtain ⟨s, hs, ht⟩ := hwrote t ht
      exact Or.inr (Or.inr ⟨s, t, hs, ht, shrunk_refl _ _⟩)

/-- **GATHERED**: the joined bytes are in `spendable_outputs` before a processing file
    goes. -/
theorem concatenate_gathered (hc : NoFailures c) (hfresh : FreshKey c u) :
    Holds (Moved u []) (concatenateProcessingOutputs c)
      (onExcept (fun _ => Gathered c u) fun (_ : MigrationError) _ => False)
      (Gathering c u) := by
  refine holds_bind (holds_look (Q := fun dir s => Moved u [] s ∧ s.dirs .processing = dir)
    fun s hs => ⟨hs, rfl⟩) fun dir => ?_
  cases dir with
  | none =>
      refine holds_pure fun s ⟨hs, hdir⟩ => Or.inl ⟨hs, ?_⟩
      rw [joinedBytes, hdir]
  | some m =>
      have hjoined (s : Disk δ) (hdir : s.dirs .processing = some m) :
          joinedBytes c s = readProcessing c m := by rw [joinedBytes, hdir]
      simp only [hc.readDir, Bool.false_eq_true, if_false]
      refine holds_ite (fun hnil => holds_pure fun s ⟨hs, hdir⟩ => ?_) fun _ => ?_
      · exact Or.inl ⟨hs, (hjoined s hdir).trans hnil⟩
      refine holds_bind (holds_weaken (persist_grown hc hfresh (readProcessing c m))
        (fun s hs => ⟨hs.1, hjoined s hs.2⟩) (fun _ _ h => h) (fun _ h => h)) fun r => ?_
      cases r with
      | error e => exact holds_pure fun s hs => hs
      | ok _ =>
          refine holds_bind (Q := fun _ v => ∃ s t, Moved u [] s ∧
            Grown s c.key (joinedBytes c s) t ∧ Shrunk .processing t v) ?_
            fun _ => holds_pure fun s hs => Or.inr hs
          rintro t ⟨s, hs, ht⟩
          obtain ⟨hfinal, hvisited⟩ :=
            removeDir_shrunk (c := c) .removeProcessing t (shrunk_refl .processing t)
          exact ⟨⟨s, t, hs, ht, hfinal⟩,
            fun v hv => Or.inr (Or.inr ⟨s, t, hs, ht, hvisited v hv⟩)⟩

/-! ## Reading and tracking -/

theorem NoFailures.undisturbed (hc : NoFailures c) (n : FileName) : Undisturbed c n :=
  ⟨hc.openFile n, hc.metadata n, hc.position n, hc.decode n⟩

theorem readOutputs_scan (hc : NoFailures c) (codec : DescriptorCodec δ) (n : FileName)
    (bytes : Bytes) (outputs : List δ) :
    readOutputsFromFile c codec n bytes outputs = outputs ++ scan codec.read bytes := by
  rw [readOutputsFromFile_scan, descriptorAt_undisturbed (hc.undisturbed n)]

/-- The outputs are what can be read of the files of `spendable_outputs`, one by one. -/
theorem mem_outputs (hc : NoFailures c) :
    d ∈ readAllSpendableOutputs c codec s ↔
      ∃ n bytes, fileAt s .spendable n = some bytes ∧ d ∈ scan codec.read bytes := by
  unfold readAllSpendableOutputs fileAt
  cases s.dirs .spendable with
  | none => simp
  | some m =>
      simp only [hc.readDir, hc.entry, Bool.false_eq_true, if_false,
        readOutputs_scan hc, ← List.flatMap_eq_foldl, List.mem_flatMap]
      constructor
      · rintro ⟨n, -, hd⟩
        cases hn : m[n]? with
        | none =>
            have hnil : codec.read [] = none := Consuming.nil codec.read_suffix
            rw [hn, Option.getD_none, scan, scanFuel, hnil] at hd
            cases hd
        | some bytes =>
            rw [hn] at hd
            exact ⟨n, bytes, hn, hd⟩
      · rintro ⟨n, bytes, hn, hd⟩
        have hget : m[n]? = some bytes := hn
        refine ⟨n, mem_listing hget, ?_⟩
        rw [hget]
        exact hd

/-- The sweeper has accepted the outputs of `v`; files of the two other directories
    may be gone since. -/
structure Accepted (codec : DescriptorCodec δ) (c : MigrationCalls) (v s : Disk δ) :
    Prop where
  tracked : s.tracked = v.tracked ++ readAllSpendableOutputs c codec v
  processing : ∀ k, fileAt s .processing k = fileAt v .processing k
  files : ∀ q k bytes, fileAt s q k = some bytes → fileAt v q k = some bytes

/-- The sweeper takes what was read. -/
theorem trackOutputs_accepted (hc : NoFailures c) (outputs : List δ) :
    Holds (fun s => s = v ∧ outputs = readAllSpendableOutputs c codec v)
      (trackOutputs c outputs)
      (onExcept (fun _ => Accepted codec c v) fun (_ : MigrationError) _ => False)
      (Accepted codec c v) := by
  refine holds_ite (fun hnone => holds_pure ?_) fun _ => ?_
  · rintro s ⟨rfl, hout⟩
    refine ⟨?_, fun _ => rfl, fun _ _ _ h => h⟩
    rw [← hout, List.eq_nil_of_length_eq_zero hnone, List.append_nil]
  · rw [if_neg (by simp [hc.track])]
    refine holds_bind (Q := fun _ => Accepted codec c v) (holds_act ?_)
      fun _ => holds_pure fun s hs => hs
    rintro s ⟨rfl, hout⟩
    have haccepted : Accepted codec c s { s with tracked := s.tracked ++ outputs } :=
      ⟨by rw [hout], fun _ => rfl, fun _ _ _ h => h⟩
    exact ⟨haccepted, haccepted⟩

/-- After that removing files loses nothing. -/
theorem removeDir_accepted (pass : Pass) (hp : p ≠ .processing) :
    Holds (Accepted codec c v) (removeDir c pass p) (fun _ => Accepted codec c v)
      (Accepted codec c v) := by
  refine removeDir_keeps (fun n s hs => ?_) (fun s hs => ?_) pass
  · refine ⟨hs.tracked, fun k => ?_, fun q k bytes hk => ?_⟩
    · rw [fileAt_unlink, if_neg (fun h => hp h.1.symm)]
      exact hs.processing k
    · rw [fileAt_unlink] at hk
      split at hk
      · cases hk
      · exact hs.files q k bytes hk
  · refine ⟨hs.tracked, fun k => ?_, fun q k bytes hk => ?_⟩
    · rw [fileAt_rmdir, if_neg hp.symm]
      exact hs.processing k
    · rw [fileAt_rmdir] at hk
      split at hk
      · cases hk
      · exact hs.files q k bytes hk

/-! ## The whole attempt -/

/-- Every state that the attempt passes through. -/
inductive Stage (codec : DescriptorCodec δ) (c : MigrationCalls) (u s : Disk δ) : Prop where
  | moving (rest : List FileName) (h : Moved u rest s)
  | gathering (h : Gathering c u s)
  | accepted (v : Disk δ) (hv : Gathered c u v) (h : Accepted codec c v s)

/-- An attempt that finds the sentinel does nothing. -/
theorem tryMigrate_done (hstat : c.statFails none = false) (hs : s.sentinel = true) :
    tryMigrate c codec s = ⟨.ok 0, s, []⟩ := by
  simp [tryMigrate, hs, hstat]

/-- One that finds no directory writes it. -/
theorem tryMigrate_empty (hc : NoFailures c) (hs : s.sentinel = false)
    (hdirs : ∀ p, s.dirs p = none) :
    tryMigrate c codec s
      = ⟨.ok 0, { s with sentinel := true }, [{ s with sentinel := true }]⟩ := by
  simp [tryMigrate, hs, pathExists, hdirs, writeSentinel, hc.sentinel]

theorem writeSentinel_accepted (hc : NoFailures c) :
    Holds (Accepted codec c v) (writeSentinel c)
      (fun _ s => s.sentinel = true ∧ Accepted codec c v s) (Accepted codec c v) := by
  unfold writeSentinel
  rw [hc.sentinel]
  refine holds_act fun s hs => ?_
  have haccepted : Accepted codec c v { s with sentinel := true } :=
    ⟨hs.tracked, hs.processing, hs.files⟩
  exact ⟨⟨rfl, haccepted⟩, haccepted⟩

/-- **STAGES**: an attempt that has something to do goes through its stages, and ends
    with the outputs accepted and the sentinel written. -/
theorem tryMigrate_stages (hc : NoFailures c) (hfresh : FreshKey c u)
    (hnew : u.sentinel = false) (hdirs : ∃ p, u.dirs p ≠ none) :
    Holds (fun s => s = u) (tryMigrate c codec)
      (fun r s => (∃ n, r = .ok n) ∧ s.sentinel = true ∧
        ∃ v, Gathered c u v ∧ Accepted codec c v s) (Stage codec c u) := by
  have hexists : ∃ p, pathExists c p u = true := by
    obtain ⟨p, hp⟩ := hdirs
    exact ⟨p, by simp [pathExists, hc.stat, Option.isSome_iff_ne_none, hp]⟩
  refine holds_bind (holds_look (Q := fun done s => s = u ∧ done = false) ?_) fun done => ?_
  · rintro s rfl
    exact ⟨rfl, by simp [hnew]⟩
  refine holds_ite (fun hdone => ?_) fun _ => ?_
  · rintro s ⟨-, hs⟩
    cases hdone.symm.trans hs
  refine holds_bind (holds_look (Q := fun empty s => s = u ∧ empty = false) ?_)
    fun empty => ?_
  · rintro s ⟨rfl, -⟩
    obtain ⟨p, hp⟩ := hexists
    exact ⟨rfl, by cases p <;> simp [hp]⟩
  refine holds_ite (fun hempty => ?_) fun _ => ?_
  · rintro s ⟨-, hs⟩
    cases hempty.symm.trans hs
  refine holds_bind (holds_weaken (movePending_moved hc) (fun s hs => hs.1)
    (fun _ _ h => h) fun s ⟨rest, hs⟩ => .moving rest hs) fun moved => ?_
  cases moved with
  | error e => exact fun s hs => hs.elim
  | ok _ =>
  refine holds_bind (holds_weaken (concatenate_gathered hc hfresh) (fun _ h => h)
    (fun _ _ h => h) fun s hs => .gathering hs) fun gathered => ?_
  cases gathered with
  | error e => exact fun s hs => hs.elim
  | ok _ =>
  -- from here on the state that has been gathered stays fixed
  intro v hv
  have haccept (s : Disk δ) (hs : Accepted codec c v s) : Stage codec c u s := .accepted v hv hs
  suffices Holds (fun s => s = v) _ (fun r s => (∃ n, r = Except.ok n) ∧ s.sentinel = true ∧
      Accepted codec c v s) (Accepted codec c v) by
    obtain ⟨⟨hr, hsent, hfinal⟩, hvisited⟩ := this v rfl
    exact ⟨⟨hr, hsent, v, hv, hfinal⟩, fun t ht => haccept t (hvisited t ht)⟩
  refine holds_bind (holds_look (Q := fun outputs s => s = v ∧
    outputs = readAllSpendableOutputs c codec v) (by rintro s rfl; exact ⟨rfl, rfl⟩))
    fun outputs => ?_
  refine holds_bind (trackOutputs_accepted hc outputs) fun tracked => ?_
  cases tracked with
  | error e => exact fun s hs => hs.elim
  | ok _ =>
  refine holds_bind (removeDir_accepted .removeSpendable (fun h => nomatch h)) fun _ => ?_
  refine holds_bind (removeDir_accepted .removePending (fun h => nomatch h)) fun _ => ?_
  exact holds_bind (writeSentinel_accepted hc) fun _ =>
    holds_pure fun s hs => ⟨⟨_, rfl⟩, hs⟩

end SweepStage
