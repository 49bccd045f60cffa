import Scorer.SweepStageProofs

/-! # What the migration keeps

    Every pass skips what it cannot list, move or read, and a later one removes the
    directory that it was in.  Which files a removal gets to depends only on the
    disk at first and on the operations that fail:

    * `leftDir`, `gatheredDir` and `spendableDir` are the three directories as the
      removals find them;
    * `Joins` and `Clears` say when the attempt comes to a removal, and `removedNames`
      how far it gets;
    * `Spared`: a file that holds the descriptor is not removed, or the sweeper has
      accepted it before.

    An attempt keeps the spared descriptors and no others
    (`migration_keeps_iff_spared`). -/

namespace SweepKeeps

open CrashProgram SweepFiles DescriptorFile SweepMigration SweepStage SelfDelimited

variable {δ : Type} {codec : DescriptorCodec δ} {c : MigrationCalls} {s t u : Disk δ}
  {d : δ} {p q : Place} {n k : FileName} {bytes : Bytes}

/-! ## What the removals find -/

/-- The files of a directory, none if it does not exist. -/
def filesOf (s : Disk δ) (p : Place) : Dir := (s.dirs p).getD ∅

/-- The move pass does not skip the entry. -/
def Considered (c : MigrationCalls) (n : FileName) : Prop :=
  c.entryFails .movePending n = false ∧ n.length = 64

/-- It moves the file. -/
def Goes (c : MigrationCalls) (n : FileName) : Prop :=
  Considered c n ∧ c.renameFails n = false

instance (c : MigrationCalls) : DecidablePred (Considered c) :=
  fun _ => inferInstanceAs (Decidable (_ ∧ _))

instance (c : MigrationCalls) : DecidablePred (Goes c) :=
  fun _ => inferInstanceAs (Decidable (_ ∧ _))

/-- The pending files that the move pass leaves. -/
def leftDir (c : MigrationCalls) (u : Disk δ) : Dir :=
  (filesOf u .pending).filter fun n _ => decide (¬ Goes c n)

/-- The processing files after the move pass. -/
def gatheredDir (c : MigrationCalls) (u : Disk δ) : Dir :=
  filesOf u .processing ∪ (filesOf u .pending).filter fun n _ => decide (Goes c n)

/-- The bytes that the joining pass reads. -/
def gatheredBytes (c : MigrationCalls) (u : Disk δ) : Bytes :=
  readProcessing c (gatheredDir c u)

/-- The migration is not known to be done, and there is a directory. -/
def Begins (c : MigrationCalls) (u : Disk δ) : Prop :=
  (u.sentinel = false ∨ c.statFails none = true) ∧
    (pathExists c .pending u = true ∨ pathExists c .processing u = true ∨
      pathExists c .spendable u = true)

/-- The move pass ends without an error. -/
def MovesThrough (c : MigrationCalls) (u : Disk δ) : Prop :=
  (u.dirs .pending).isSome = true → c.readDirFails .movePending = false ∧
    ∀ n ∈ (filesOf u .pending).keys, Considered c n → c.createDirFails n = false

/-- There is a processing directory after the move pass. -/
def HasProcessing (c : MigrationCalls) (u : Disk δ) : Prop :=
  (u.dirs .processing).isSome = true ∨
    ∃ n ∈ (filesOf u .pending).keys, Considered c n

/-- The joining pass ends without an error. -/
def JoinsThrough (c : MigrationCalls) (u : Disk δ) : Prop :=
  HasProcessing c u → c.readDirFails .readProcessing = false ∧
    (gatheredBytes c u = [] ∨ c.persistFails = none)

/-- The attempt writes what it has joined and comes to remove the processing
    directory. -/
def Joins (c : MigrationCalls) (u : Disk δ) : Prop :=
  Begins c u ∧ MovesThrough c u ∧ HasProcessing c u ∧ JoinsThrough c u ∧
    gatheredBytes c u ≠ []

instance (c : MigrationCalls) (u : Disk δ) : Decidable (Begins c u) :=
  inferInstanceAs (Decidable (_ ∧ _))

instance (c : MigrationCalls) (u : Disk δ) : Decidable (MovesThrough c u) :=
  inferInstanceAs (Decidable (_ → _))

instance (c : MigrationCalls) (u : Disk δ) : Decidable (HasProcessing c u) :=
  inferInstanceAs (Decidable (_ ∨ _))

instance (c : MigrationCalls) (u : Disk δ) : Decidable (JoinsThrough c u) :=
  inferInstanceAs (Decidable (_ → _))

instance (c : MigrationCalls) (u : Disk δ) : Decidable (Joins c u) :=
  inferInstanceAs (Decidable (_ ∧ _))

/-- The files of `spendable_outputs` when they are read. -/
def spendableDir (c : MigrationCalls) (u : Disk δ) : Dir :=
  if Joins c u then (filesOf u .spendable).insert c.key (gatheredBytes c u)
  else filesOf u .spendable

/-- The calls of the reading pass that lead to `d` in the file succeed. -/
def ReadFrom (codec : DescriptorCodec δ) (c : MigrationCalls) (n : FileName)
    (bytes : Bytes) (d : δ) : Prop :=
  c.readDirFails .readSpendable = false ∧ c.entryFails .readSpendable n = false ∧
    c.openFails n = false ∧ c.metadataFails n = false ∧
    ∃ before after, bytes = encodeAll codec (before ++ d :: after) ∧
      ∀ front, front <+: before →
        c.positionFails n (encodeAll codec front).length = false ∧
          c.decodeFails n (encodeAll codec front).length = false

/-- The attempt comes to remove the two other directories: if it has read a
    descriptor, the sweeper has accepted it. -/
def Clears (codec : DescriptorCodec δ) (c : MigrationCalls) (u : Disk δ) : Prop :=
  Begins c u ∧ MovesThrough c u ∧ JoinsThrough c u ∧
    ((∃ n bytes d, (spendableDir c u)[n]? = some bytes ∧ ReadFrom codec c n bytes d) →
      c.trackFails = false)

/-- What the removal of each directory would find in it. -/
def foundDir (c : MigrationCalls) (u : Disk δ) : Place → Dir
  | .pending => leftDir c u
  | .processing => gatheredDir c u
  | .spendable => spendableDir c u

/-- The files that the removal of a directory gets to: the first failure ends it. -/
def removedNames (c : MigrationCalls) (pass : Pass) (m : Dir) : List FileName :=
  (listing (c.order pass) m).takeWhile fun n => !c.unlinkFails pass n

/-- The attempt removes the file. -/
def Removed (codec : DescriptorCodec δ) (c : MigrationCalls) (u : Disk δ) :
    Place → FileName → Prop
  | .pending, n => Clears codec c u ∧ n ∈ removedNames c .removePending (leftDir c u)
  | .processing, n => Joins c u ∧ n ∈ removedNames c .removeProcessing (gatheredDir c u)
  | .spendable, n =>
      Clears codec c u ∧ n ∈ removedNames c .removeSpendable (spendableDir c u)

/-- The sweeper has the descriptor already, a file that holds it is not removed, or it
    is read, and accepted, before that. -/
inductive Spared (codec : DescriptorCodec δ) (c : MigrationCalls) (u : Disk δ) (d : δ) :
    Prop where
  | accepted (h : d ∈ u.tracked)
  | stays {p : Place} {n : FileName} {bytes : Bytes}
      (hfile : (foundDir c u p)[n]? = some bytes) (hd : Contains codec bytes d)
      (hstays : ¬ Removed codec c u p n)
  | read {n : FileName} {bytes : Bytes} (hfile : (spendableDir c u)[n]? = some bytes)
      (hd : ReadFrom codec c n bytes d) (hclears : Clears codec c u)

/-! ## Files of a disk -/

theorem fileAt_filesOf (s : Disk δ) (p : Place) (n : FileName) :
    fileAt s p n = (filesOf s p)[n]? := by
  rw [fileAt, filesOf]
  cases s.dirs p <;> simp

/-- The names of a directory are those of its files. -/
theorem mem_keys_filesOf : n ∈ (filesOf s p).keys ↔ ∃ bytes, fileAt s p n = some bytes := by
  rw [Std.ExtTreeMap.mem_keys, ← Std.ExtTreeMap.isSome_getElem?_iff_mem, fileAt_filesOf,
    Option.isSome_iff_exists]

theorem mem_listing_iff {order : List FileName} {m : Dir} :
    n ∈ listing order m ↔ n ∈ m.keys := by
  unfold listing
  split
  · rename_i hperm
    exact hperm.mem_iff
  · rfl

theorem leftDir_get (c : MigrationCalls) (u : Disk δ) (n : FileName) :
    (leftDir c u)[n]? = if Goes c n then none else fileAt u .pending n := by
  rw [leftDir, Std.ExtTreeMap.getElem?_filter', ← fileAt_filesOf]
  by_cases hn : Goes c n <;> cases fileAt u .pending n <;> simp [hn]

theorem gatheredDir_get (c : MigrationCalls) (u : Disk δ) (n : FileName) :
    (gatheredDir c u)[n]? =
      if Goes c n then (fileAt u .pending n).or (fileAt u .processing n)
      else fileAt u .processing n := by
  rw [gatheredDir, Std.ExtTreeMap.getElem?_union, Std.ExtTreeMap.getElem?_filter',
    ← fileAt_filesOf, ← fileAt_filesOf]
  by_cases hn : Goes c n <;> cases fileAt u .pending n <;> simp [hn]

theorem spendableDir_get (c : MigrationCalls) (u : Disk δ) (n : FileName) :
    (spendableDir c u)[n]? =
      if Joins c u ∧ n = c.key then some (gatheredBytes c u) else fileAt u .spendable n := by
  rw [spendableDir, fileAt_filesOf]
  by_cases hjoins : Joins c u
  · by_cases hn : n = c.key
    · simp [hjoins, hn]
    · simp [hjoins, hn, Std.ExtTreeMap.getElem?_insert, Ne.symm hn]
  · simp [hjoins]

/-! ## Moving -/

/-- What has moved is where it can be found. -/
theorem movedBy_safe {rest : List FileName} (hapart : Apart u)
    (hs : MovedBy (Goes c) u rest s) : Safe codec s d ↔ Safe codec u d := by
  rw [Safe, Safe, hs.tracked]
  refine or_congr_right ?_
  constructor
  · rintro ⟨p, n, bytes, hfile, hd⟩
    cases p with
    | pending =>
        rw [hs.pending] at hfile
        split at hfile
        · cases hfile
        · exact ⟨.pending, n, bytes, hfile, hd⟩
    | processing =>
        rw [hs.processing] at hfile
        split at hfile
        · rcases Option.or_eq_some_iff.mp hfile with hpend | ⟨-, hproc⟩
          · exact ⟨.pending, n, bytes, hpend, hd⟩
          · exact ⟨.processing, n, bytes, hproc, hd⟩
        · exact ⟨.processing, n, bytes, hfile, hd⟩
    | spendable => exact ⟨.spendable, n, bytes, (hs.spendable n).symm.trans hfile, hd⟩
  · rintro ⟨p, n, bytes, hfile, hd⟩
    cases p with
    | pending =>
        by_cases hmoved : Goes c n ∧ n ∉ rest
        · refine ⟨.processing, n, bytes, ?_, hd⟩
          rw [hs.processing, if_pos hmoved, hfile, Option.some_or]
        · refine ⟨.pending, n, bytes, ?_, hd⟩
          rw [hs.pending, if_neg hmoved, hfile]
    | processing =>
        have hfree : fileAt u .pending n = none :=
          (hapart n).resolve_right (ne_of_eq_of_ne hfile (Option.some_ne_none bytes))
        refine ⟨.processing, n, bytes, ?_, hd⟩
        rw [hs.processing, hfree, Option.none_or, ite_self, hfile]
    | spendable => exact ⟨.spendable, n, bytes, (hs.spendable n).trans hfile, hd⟩

/-- The directories after the move pass. -/
theorem movedBy_found (hs : MovedBy (Goes c) u [] s) :
    filesOf s .pending = leftDir c u ∧ filesOf s .processing = gatheredDir c u ∧
      filesOf s .spendable = filesOf u .spendable := by
  refine ⟨?_, ?_, ?_⟩
  · refine Std.ExtTreeMap.ext_getElem? fun n => ?_
    rw [← fileAt_filesOf, leftDir_get, hs.pending]
    simp
  · refine Std.ExtTreeMap.ext_getElem? fun n => ?_
    rw [← fileAt_filesOf, gatheredDir_get, hs.processing]
    simp
  · refine Std.ExtTreeMap.ext_getElem? fun n => ?_
    rw [← fileAt_filesOf, ← fileAt_filesOf, hs.spendable]

/-- The pass over the names `all` has those of `rest` ahead of it. -/
structure MovesOn (c : MigrationCalls) (u : Disk δ) (all rest : List FileName)
    (s : Disk δ) : Prop where
  ahead : rest <:+ all
  moved : MovedBy (Goes c) u rest s
  directory : (s.dirs .processing).isSome = true ↔
    (u.dirs .processing).isSome = true ∨ ∃ n ∈ all, n ∉ rest ∧ Considered c n
  created : ∀ n ∈ all, n ∉ rest → Considered c n → c.createDirFails n = false

/-- One entry more has gone through. -/
theorem movesOn_next {all rest : List FileName} (hall : all.Nodup)
    (hs : MovesOn c u all (n :: rest) s) (hmoved : MovedBy (Goes c) u rest t)
    (hdir : (t.dirs .processing).isSome = true ↔
      (s.dirs .processing).isSome = true ∨ Considered c n)
    (hcreated : Considered c n → c.createDirFails n = false) : MovesOn c u all rest t := by
  have hnew : n ∉ rest := (List.nodup_cons.mp (hs.ahead.sublist.nodup hall)).1
  have hn : n ∈ all := hs.ahead.subset List.mem_cons_self
  refine ⟨(List.suffix_cons n rest).trans hs.ahead, hmoved, ?_, fun k hk hrest hcons => ?_⟩
  · rw [hdir, hs.directory]
    constructor
    · rintro ((h | ⟨k, hk, hrest, hcons⟩) | h)
      · exact Or.inl h
      · exact Or.inr ⟨k, hk, fun h => hrest (List.mem_cons_of_mem _ h), hcons⟩
      · exact Or.inr ⟨n, hn, hnew, h⟩
    · rintro (h | ⟨k, hk, hrest, hcons⟩)
      · exact Or.inl (Or.inl h)
      · by_cases hkn : k = n
        · exact Or.inr (hkn ▸ hcons)
        · refine Or.inl (Or.inr ⟨k, hk, fun h => ?_, hcons⟩)
          exact (List.mem_cons.mp h).elim hkn hrest
  · by_cases hkn : k = n
    · subst hkn
      exact hcreated hcons
    · refine hs.created k hk (fun h => ?_) hcons
      exact (List.mem_cons.mp h).elim hkn hrest

/-- Renaming makes no directory and removes none. -/
theorem isSome_renameFile (s : Disk δ) (p q r : Place) (n n' : FileName) :
    ((renameFile p n q n' s).dirs r).isSome = (s.dirs r).isSome := by
  rw [renameFile]
  cases fileAt s p n with
  | none => rfl
  | some bytes =>
      simp only [putFile, unlink, setDir]
      split
      · split <;> simp_all
      · split <;> simp_all

/-- One entry of the pass. -/
theorem moveEntry_moves {all : List FileName} (hall : all.Nodup) (n : FileName)
    (rest : List FileName) :
    Holds (MovesOn c u all (n :: rest)) (moveEntry c n)
      (onExcept (fun _ => MovesOn c u all rest) fun _ s =>
        (∃ n ∈ all, Considered c n ∧ c.createDirFails n = true) ∧
          ∃ rest, MovedBy (Goes c) u rest s)
      (fun s => ∃ rest, MovedBy (Goes c) u rest s) := by
  have hskip (hn : ¬ Considered c n) (s : Disk δ) (hs : MovesOn c u all (n :: rest) s) :
      MovesOn c u all rest s :=
    movesOn_next hall hs (moved_skip hs.moved fun h => absurd h.1 hn)
      ⟨Or.inl, fun h => h.resolve_right hn⟩ fun h => absurd h hn
  refine holds_ite (fun h => holds_pure (hskip fun hn => ?_)) fun hentry => ?_
  · cases h.symm.trans hn.1
  refine holds_ite (fun h => holds_pure (hskip fun hn => h hn.2)) fun hlen => ?_
  have hcons : Considered c n := ⟨Bool.not_eq_true _ ▸ hentry, Classical.not_not.mp hlen⟩
  refine holds_ite (fun h => holds_pure fun s hs => ?_) fun hcreate => ?_
  · exact ⟨⟨n, hs.ahead.subset List.mem_cons_self, hcons, h⟩, _, hs.moved⟩
  have hcreated : c.createDirFails n = false := Bool.not_eq_true _ ▸ hcreate
  refine holds_bind (Q := fun _ t => ∃ s, MovesOn c u all (n :: rest) s ∧
    t = createDirAll .processing s) (holds_act fun s hs => ⟨⟨s, hs, rfl⟩, ?_⟩) fun _ => ?_
  · exact ⟨_, moved_of_same hs.moved rfl rfl fun p k => fileAt_createDirAll s .processing p k⟩
  have hsame (s : Disk δ) (hs : MovesOn c u all (n :: rest) s) :
      MovedBy (Goes c) u (n :: rest) (createDirAll .processing s) :=
    moved_of_same hs.moved rfl rfl fun p k => fileAt_createDirAll s .processing p k
  refine holds_ite (fun h => holds_pure ?_) fun hrename => ?_
  · rintro t ⟨s, hs, rfl⟩
    refine movesOn_next hall hs (moved_skip (hsame s hs) fun hn => ?_)
      (iff_of_true rfl (Or.inr hcons)) fun _ => hcreated
    cases h.symm.trans hn.2
  refine holds_bind (Q := fun _ => MovesOn c u all rest) (holds_act ?_)
    fun _ => holds_pure fun s hs => hs
  rintro t ⟨s, hs, rfl⟩
  -- the name does not come again, so the file stays where it goes
  have hnew : n ∉ rest := (List.nodup_cons.mp (hs.ahead.sublist.nodup hall)).1
  have hmoved := moved_rename (hsame s hs) ⟨hcons, Bool.not_eq_true _ ▸ hrename⟩ hnew rfl
  refine ⟨movesOn_next hall hs hmoved (iff_of_true ?_ (Or.inr hcons)) fun _ => hcreated,
    _, hmoved⟩
  rw [isSome_renameFile]
  rfl

/-- **MOVED**: how the move pass ends, and what every state on its way is. -/
theorem movePending_moves (u : Disk δ) :
    Holds (fun s => s = u) (movePendingToProcessing c)
      (onExcept (fun _ s => MovesThrough c u ∧ MovedBy (Goes c) u [] s ∧
          ((s.dirs .processing).isSome = true ↔ HasProcessing c u))
        fun _ s => ¬ MovesThrough c u ∧ ∃ rest, MovedBy (Goes c) u rest s)
      (fun s => ∃ rest, MovedBy (Goes c) u rest s) := by
  have hstart (rest : List FileName) (hrest : ∀ n ∈ (filesOf u .pending).keys, n ∈ rest) :
      MovedBy (Goes c) u rest u :=
    moved_start fun n bytes hfile => hrest n (mem_keys_filesOf.mpr ⟨bytes, hfile⟩)
  refine holds_bind (holds_look (Q := fun dir s => s = u ∧ dir = u.dirs .pending)
    fun s hs => ⟨hs, by rw [hs]⟩) fun dir => ?_
  cases dir with
  | none =>
      refine holds_pure ?_
      rintro s ⟨rfl, hdir⟩
      have hnone (n : FileName) : n ∉ (filesOf s .pending).keys := by
        rw [filesOf, ← hdir]
        simp
      refine ⟨fun h => ?_, hstart [] fun n hn => absurd hn (hnone n),
        ⟨Or.inl, fun h => h.resolve_right fun ⟨n, hn, _⟩ => hnone n hn⟩⟩
      rw [← hdir] at h
      cases h
  | some m =>
      have hfiles (h : some m = u.dirs .pending) : filesOf u .pending = m := by
        rw [filesOf, ← h]
        rfl
      refine holds_ite (fun hread => holds_pure ?_) fun hread => ?_
      · rintro s ⟨rfl, hdir⟩
        refine ⟨fun h => ?_, _, hstart _ fun _ h => h⟩
        cases hread.symm.trans (h (by rw [← hdir]; rfl)).1
      · have hreads : c.readDirFails .movePending = false := Bool.not_eq_true _ ▸ hread
        -- the loop: `MovesOn` says what the pass has done of the listing
        have hnodup := listing_nodup (c.order .movePending) m
        refine holds_fixed fun s ⟨hs, hdir⟩ => ?_
        subst hs
        have hmem (n : FileName) :
            n ∈ listing (c.order .movePending) m ↔ n ∈ (filesOf s .pending).keys := by
          rw [hfiles hdir, mem_listing_iff]
        refine holds_weaken (holds_forEach (I := MovesOn c s (listing (c.order .movePending) m))
          (moveEntry_moves hnodup) _) ?_ ?_ (fun _ h => h)
        · rintro t rfl
          refine ⟨List.suffix_refl _, hstart _ fun n hn => (hmem n).mpr hn,
            ⟨Or.inl, fun h => h.resolve_right ?_⟩, fun n hn hnew => absurd hn hnew⟩
          exact fun ⟨n, hn, hnew, _⟩ => hnew hn
        · intro r t hr
          cases r with
          | ok _ =>
              refine ⟨fun _ => ⟨hreads, fun n hn => ?_⟩, hr.moved, hr.directory.trans ?_⟩
              · exact hr.created n ((hmem n).mpr hn) List.not_mem_nil
              · refine or_congr_right (exists_congr fun n => ?_)
                rw [hmem]
                simp
          | error e =>
              obtain ⟨⟨n, hn, hcons, hfails⟩, hmoved⟩ := hr
              refine ⟨fun h => ?_, hmoved⟩
              have hcreate := (h (by rw [← hdir]; rfl)).2 n ((hmem n).mp hn) hcons
              cases hfails.symm.trans hcreate

/-! ## Removing a directory -/

/-- The files of these names are gone from the directory, the others are there. -/
structure Gone (names : List FileName) (p : Place) (u s : Disk δ) : Prop where
  tracked : s.tracked = u.tracked
  files : ∀ q k, fileAt s q k = if q = p ∧ k ∈ names then none else fileAt u q k

/-- Names that were not there are gone. -/
theorem gone_absent {names : List FileName} (h : ∀ k ∈ names, fileAt u p k = none) :
    Gone names p u u := by
  refine ⟨rfl, fun q k => ?_⟩
  split
  · rename_i hk
    rw [hk.1, h k hk.2]
  · rfl

theorem gone_unlink {names : List FileName} (hs : Gone names p u s) (n : FileName) :
    Gone (names ++ [n]) p u (unlink p n s) := by
  refine ⟨hs.tracked, fun q k => ?_⟩
  rw [fileAt_unlink, hs.files]
  by_cases hq : q = p <;> by_cases hk : k = n <;> simp [hq, hk]

/-- With all names gone the directory can go. -/
theorem gone_rmdir {names : List FileName} (hs : Gone names p u s)
    (hall : ∀ k bytes, fileAt u p k = some bytes → k ∈ names) :
    Gone names p u (rmdir p s) := by
  refine ⟨hs.tracked, fun q k => ?_⟩
  rw [fileAt_rmdir, hs.files]
  by_cases hq : q = p
  · subst hq
    cases hfile : fileAt u q k with
    | none => simp
    | some bytes => simp [hall k bytes hfile]
  · simp [hq]

/-- The names up to `rest` are gone, and none of their removals has failed. -/
def Removing (c : MigrationCalls) (pass : Pass) (p : Place) (u : Disk δ)
    (rest : List FileName) (s : Disk δ) : Prop :=
  ∃ names, listing (c.order pass) (filesOf u p) = names ++ rest ∧
    (∀ k ∈ names, c.unlinkFails pass k = false) ∧ Gone names p u s

/-- The names before the first failure, from any name on. -/
theorem removedNames_append {pass : Pass} {m : Dir} {names rest : List FileName}
    (hlist : listing (c.order pass) m = names ++ rest)
    (hnames : ∀ k ∈ names, c.unlinkFails pass k = false) :
    removedNames c pass m = names ++ rest.takeWhile fun n => !c.unlinkFails pass n := by
  rw [removedNames, hlist, List.takeWhile_append_of_pos fun k hk => by simp [hnames k hk]]

theorem removing_start {pass : Pass} :
    Removing c pass p u (listing (c.order pass) (filesOf u p)) u :=
  ⟨[], rfl, fun _ hk => (List.not_mem_nil hk).elim,
    gone_absent fun _ hk => (List.not_mem_nil hk).elim⟩

/-- What is gone on the way is gone at the end. -/
theorem removing_subset {pass : Pass} {rest : List FileName}
    (hs : Removing c pass p u rest s) :
    ∃ names, names ⊆ removedNames c pass (filesOf u p) ∧ Gone names p u s := by
  obtain ⟨names, hlist, hnames, hgone⟩ := hs
  refine ⟨names, ?_, hgone⟩
  rw [removedNames_append hlist hnames]
  exact List.subset_append_left _ _

theorem removing_next {pass : Pass} {rest : List FileName}
    (hs : Removing c pass p u (n :: rest) s) (hn : c.unlinkFails pass n = false) :
    Removing c pass p u rest (unlink p n s) := by
  obtain ⟨names, hlist, hnames, hgone⟩ := hs
  refine ⟨names ++ [n], by simp [hlist], fun k hk => ?_, gone_unlink hgone n⟩
  rcases List.mem_append.mp hk with hk | hk
  · exact hnames k hk
  · exact List.mem_singleton.mp hk ▸ hn

/-- A failure ends the removal. -/
theorem removing_stop {pass : Pass} {rest : List FileName}
    (hs : Removing c pass p u (n :: rest) s) (hn : c.unlinkFails pass n = true) :
    Gone (removedNames c pass (filesOf u p)) p u s := by
  obtain ⟨names, hlist, hnames, hgone⟩ := hs
  have hall := removedNames_append hlist hnames
  rw [List.takeWhile_cons_of_neg (by simp [hn]), List.append_nil] at hall
  exact hall ▸ hgone

/-- Without a failure nothing is left in the directory. -/
theorem removing_end {pass : Pass} (hs : Removing c pass p u [] s) :
    Gone (removedNames c pass (filesOf u p)) p u s ∧
      ∀ k bytes, fileAt u p k = some bytes → k ∈ removedNames c pass (filesOf u p) := by
  obtain ⟨names, hlist, hnames, hgone⟩ := hs
  have hall := removedNames_append hlist hnames
  rw [List.takeWhile_nil, List.append_nil] at hall
  rw [hall]
  refine ⟨hgone, fun k bytes hfile => ?_⟩
  rw [fileAt_filesOf] at hfile
  have hmem : k ∈ listing (c.order pass) (filesOf u p) := mem_listing hfile
  rwa [hlist, List.append_nil] at hmem

/-- One entry of the listing. -/
theorem removing_entry (pass : Pass) (p : Place) (u : Disk δ) (n : FileName)
    (rest : List FileName) :
    Holds (Removing c pass p u (n :: rest))
      (if c.unlinkFails pass n then pure (.error ()) else do
        act (unlink p n)
        pure (.ok ()) : Prog (Disk δ) (Except Unit Unit))
      (onExcept (fun _ => Removing c pass p u rest)
        fun _ => Gone (removedNames c pass (filesOf u p)) p u)
      (fun s => ∃ names, names ⊆ removedNames c pass (filesOf u p) ∧ Gone names p u s) := by
  refine holds_ite (fun hfails => holds_pure fun s hs => ?_) fun hfails => ?_
  · exact removing_stop hs hfails
  · refine holds_bind (Q := fun _ => Removing c pass p u rest) (holds_act fun s hs => ?_)
      fun _ => holds_pure fun s hs => hs
    have hnext := removing_next hs (Bool.not_eq_true _ ▸ hfails)
    exact ⟨hnext, removing_subset hnext⟩

/-- **REMOVED**: a removal takes the files before the first failure, one by one. -/
theorem removeDir_gone (pass : Pass) (p : Place) (u : Disk δ) :
    Holds (fun s => s = u) (removeDir c pass p)
      (fun _ => Gone (removedNames c pass (filesOf u p)) p u)
      (fun s => ∃ names, names ⊆ removedNames c pass (filesOf u p) ∧ Gone names p u s) := by
  refine holds_bind (holds_look (Q := fun dir s => s = u ∧ dir = u.dirs p)
    fun s hs => ⟨hs, by rw [hs]⟩) fun dir => ?_
  cases dir with
  | none =>
      refine holds_pure ?_
      rintro s ⟨rfl, hdir⟩
      refine gone_absent fun k _ => ?_
      rw [fileAt, ← hdir]
      rfl
  | some m =>
      refine holds_fixed fun s hs => ?_
      obtain ⟨rfl, hdir⟩ := hs
      have hm : filesOf s p = m := by
        rw [filesOf, ← hdir]
        rfl
      subst hm
      have hentries := holds_forEach (removing_entry (c := c) pass p s)
        (listing (c.order pass) (filesOf s p))
      refine holds_bind (holds_weaken hentries ?_ (fun _ _ h => h) (fun _ h => h)) fun r => ?_
      · rintro t rfl
        exact removing_start
      cases r with
      | error e => exact holds_pure fun t ht => ht
      | ok _ =>
          refine holds_ite (fun _ => holds_pure fun t ht => (removing_end ht).1) fun _ => ?_
          -- the directory itself goes last
          refine holds_act fun t ht => ?_
          obtain ⟨hgone, hmem⟩ := removing_end ht
          have hgone' := gone_rmdir hgone hmem
          exact ⟨hgone', _, fun _ h => h, hgone'⟩

/-! ## Joining -/

/-- What can be found, without the files that are gone, and what the sweeper has
    accepted besides. -/
structure Remains (c : MigrationCalls) (u : Disk δ) (gone : Place → FileName → Prop)
    (outputs : List δ) (s : Disk δ) : Prop where
  tracked : s.tracked = u.tracked ++ outputs
  stays : ∀ p k, ¬ gone p k → fileAt s p k = (foundDir c u p)[k]?
  removed : ∀ p k, gone p k → fileAt s p k = none

/-- A removal adds to what is gone. -/
theorem remains_gone {gone : Place → FileName → Prop} {outputs : List δ}
    {names : List FileName} (hs : Remains c u gone outputs s) (ht : Gone names p s t) :
    Remains c u (fun q k => gone q k ∨ q = p ∧ k ∈ names) outputs t := by
  refine ⟨ht.tracked.trans hs.tracked, fun q k hk => ?_, fun q k hk => ?_⟩
  · rw [ht.files, if_neg fun h => hk (Or.inr h)]
    exact hs.stays q k fun h => hk (Or.inl h)
  · rw [ht.files]
    split
    · rfl
    · rename_i hnew
      exact hs.removed q k (hk.resolve_right hnew)

/-- What remains depends on the names that are gone, however they are described. -/
theorem remains_congr {gone gone' : Place → FileName → Prop} {outputs : List δ}
    (hs : Remains c u gone outputs s) (h : ∀ p k, gone p k ↔ gone' p k) :
    Remains c u gone' outputs s :=
  ⟨hs.tracked, fun p k hk => hs.stays p k fun hg => hk ((h p k).mp hg),
    fun p k hk => hs.removed p k ((h p k).mpr hk)⟩

/-- A directory from which nothing is gone. -/
theorem remains_filesOf {gone : Place → FileName → Prop} {outputs : List δ}
    (hs : Remains c u gone outputs s) (hp : ∀ k, ¬ gone p k) :
    filesOf s p = foundDir c u p := by
  refine Std.ExtTreeMap.ext_getElem? fun k => ?_
  rw [← fileAt_filesOf, hs.stays p k (hp k)]

/-- The removal of a directory from which nothing is gone yet. -/
theorem removeDir_remains {gone : Place → FileName → Prop} {outputs : List δ} {pass : Pass}
    (hp : ∀ k, ¬ gone p k)
    (hremoved : ∀ k, Removed codec c u p k ↔ k ∈ removedNames c pass (foundDir c u p)) :
    Holds (Remains c u gone outputs) (removeDir c pass p)
      (fun _ => Remains c u (fun q k => gone q k ∨ q = p ∧ Removed codec c u q k) outputs)
      (fun s => ∃ gone', (∀ q k, gone' q k → gone q k ∨ q = p ∧ Removed codec c u q k) ∧
        Remains c u gone' outputs s) := by
  refine holds_fixed fun s hs => ?_
  have hnames := remains_filesOf hs hp
  refine holds_weaken (removeDir_gone pass p s) (fun _ h => h) (fun _ t ht => ?_) fun t ht => ?_
  · rw [hnames] at ht
    refine remains_congr (remains_gone hs ht) fun q k => or_congr_right ?_
    constructor
    · rintro ⟨rfl, hk⟩
      exact ⟨rfl, (hremoved k).mpr hk⟩
    · rintro ⟨rfl, hk⟩
      exact ⟨rfl, (hremoved k).mp hk⟩
  · obtain ⟨names, hsub, ht⟩ := ht
    rw [hnames] at hsub
    refine ⟨_, fun q k hk => hk.imp_right ?_, remains_gone hs ht⟩
    rintro ⟨rfl, hmem⟩
    exact ⟨rfl, (hremoved k).mpr (hsub hmem)⟩

/-- Every file of the three directories as they are found is one of descriptors. -/
theorem gatheredDir_wellFormed (hwf : AllWellFormed codec u)
    (hfile : (gatheredDir c u)[n]? = some bytes) : WellFormed codec bytes := by
  rw [gatheredDir_get] at hfile
  split at hfile
  · rcases Option.or_eq_some_iff.mp hfile with hpend | ⟨-, hproc⟩
    · exact hwf _ n bytes hpend
    · exact hwf _ n bytes hproc
  · exact hwf _ n bytes hfile

/-- What the joining pass takes from one file. -/
theorem joinedPart_wellFormed (hwf : AllWellFormed codec u) (n : FileName) :
    WellFormed codec (if c.entryFails .readProcessing n || c.readFails n then []
      else ((gatheredDir c u)[n]?).getD []) := by
  split
  · exact wellFormed_nil
  · cases hfile : (gatheredDir c u)[n]? with
    | none => exact wellFormed_nil
    | some bytes => exact gatheredDir_wellFormed hwf hfile

/-- Joining whole files gives a whole one. -/
theorem gatheredBytes_wellFormed (hwf : AllWellFormed codec u) :
    WellFormed codec (gatheredBytes c u) :=
  wellFormed_flatMap fun n _ => joinedPart_wellFormed hwf n

/-- The joined bytes hold nothing that is not in a processing file. -/
theorem gatheredBytes_contains (hwf : AllWellFormed codec u)
    (hd : Contains codec (gatheredBytes c u) d) :
    ∃ (n : FileName) (bytes : Bytes), (gatheredDir c u)[n]? = some bytes ∧
      Contains codec bytes d := by
  obtain ⟨n, -, hcont⟩ := (contains_flatMap fun n _ => joinedPart_wellFormed hwf n).mp hd
  split at hcont
  · exact absurd rfl (contains_ne_nil hcont)
  · cases hfile : (gatheredDir c u)[n]? with
    | none =>
        rw [hfile] at hcont
        exact absurd rfl (contains_ne_nil hcont)
    | some bytes =>
        rw [hfile] at hcont
        exact ⟨n, bytes, hfile, hcont⟩

theorem spendableDir_wellFormed (hwf : AllWellFormed codec u)
    (hfile : (spendableDir c u)[n]? = some bytes) : WellFormed codec bytes := by
  rw [spendableDir_get] at hfile
  split at hfile
  · obtain rfl := Option.some.inj hfile
    exact gatheredBytes_wellFormed hwf
  · exact hwf _ n bytes hfile

/-- The write is on its way: a temporary file costs nothing and gives nothing. -/
theorem writing_safe (h₀ : Start codec c u)
    (hs : Writing (MovedBy (Goes c) u []) c (gatheredBytes c u) s) :
    Safe codec s d ↔ Safe codec u d := by
  rcases hs with hs | ⟨v, i, hv, hs⟩
  · exact movedBy_safe h₀.apart hs
  rw [← movedBy_safe h₀.apart hv, Safe, Safe, hs.tracked]
  refine or_congr_right ?_
  constructor
  · rintro ⟨p, n, bytes, hfile, hd⟩
    rw [hs.files] at hfile
    split at hfile
    · obtain rfl := Option.some.inj hfile
      have hall := contains_of_front (List.take_prefix i (gatheredBytes c u))
        (gatheredBytes_wellFormed h₀.wellFormed) hd
      obtain ⟨k, b, hk, hcont⟩ := gatheredBytes_contains h₀.wellFormed hall
      refine ⟨.processing, k, b, ?_, hcont⟩
      rw [fileAt_filesOf, (movedBy_found hv).2.1]
      exact hk
    · exact ⟨p, n, bytes, hfile, hd⟩
  · rintro ⟨p, n, bytes, hfile, hd⟩
    refine ⟨p, n, bytes, ?_, hd⟩
    rw [hs.files, if_neg, hfile]
    rintro ⟨rfl, rfl⟩
    cases h₀.fresh.2.symm.trans ((hv.spendable _).symm.trans hfile)

/-- Nothing has to be joined. -/
theorem movedBy_remains (hjoins : ¬ Joins c u) (hs : MovedBy (Goes c) u [] s) :
    Remains c u (fun p k => p = .processing ∧ Removed codec c u p k) [] s := by
  obtain ⟨hpending, hprocessing, hspendable⟩ := movedBy_found hs
  refine ⟨hs.tracked.trans (List.append_nil _).symm, fun p k _ => ?_, fun p k hk => ?_⟩
  · rw [fileAt_filesOf]
    cases p with
    | pending => rw [hpending, foundDir]
    | processing => rw [hprocessing, foundDir]
    | spendable => rw [hspendable, foundDir, spendableDir, if_neg hjoins]
  · obtain ⟨rfl, hjoined, -⟩ := hk
    exact absurd hjoined hjoins

/-- What has been joined has been written. -/
theorem grown_remains (hjoins : Joins c u) (hs : MovedBy (Goes c) u [] s)
    (ht : Grown s c.key (gatheredBytes c u) t) : Remains c u (fun _ _ => False) [] t := by
  obtain ⟨hpending, hprocessing, hspendable⟩ := movedBy_found hs
  refine ⟨(ht.tracked.trans hs.tracked).trans (List.append_nil _).symm, fun p k _ => ?_,
    fun _ _ h => h.elim⟩
  rw [ht.files]
  cases p with
  | pending => rw [if_neg (by simp), fileAt_filesOf, hpending, foundDir]
  | processing => rw [if_neg (by simp), fileAt_filesOf, hprocessing, foundDir]
  | spendable =>
      rw [foundDir, spendableDir_get, hs.spendable]
      by_cases hk : k = c.key <;> simp [hk, hjoins]

/-- What is gone of the processing directory, and nothing else. -/
def Joining (codec : DescriptorCodec δ) (c : MigrationCalls) (u s : Disk δ) : Prop :=
  ∃ gone, (∀ p k, gone p k → p = .processing ∧ Removed codec c u p k) ∧ Remains c u gone [] s

/-- The write succeeds only where the attempt joins. -/
theorem wrote_joins (hbegins : Begins c u) (hmoves : MovesThrough c u)
    (hprocessing : HasProcessing c u) (hreads : c.readDirFails .readProcessing = false)
    (hne : gatheredBytes c u ≠ [])
    (ht : Wrote (MovedBy (Goes c) u []) c (gatheredBytes c u) t) :
    Joins c u ∧ Remains c u (fun _ _ => False) [] t := by
  obtain ⟨hpersist, v, hv, ht⟩ := ht
  have hthrough : JoinsThrough c u := fun _ => ⟨hreads, Or.inr hpersist⟩
  have hjoins : Joins c u := ⟨hbegins, hmoves, hprocessing, hthrough, hne⟩
  exact ⟨hjoins, grown_remains hjoins hv ht⟩

/-- The write from a state that the move pass leaves. -/
theorem persist_joins (hfresh : FreshKey c u) :
    Holds (MovedBy (Goes c) u []) (persist c (gatheredBytes c u))
      (onExcept (fun _ => Wrote (MovedBy (Goes c) u []) c (gatheredBytes c u))
        fun _ s => c.persistFails ≠ none ∧ Writing (MovedBy (Goes c) u []) c (gatheredBytes c u) s)
      (fun s => Writing (MovedBy (Goes c) u []) c (gatheredBytes c u) s ∨
        Wrote (MovedBy (Goes c) u []) c (gatheredBytes c u) s) := by
  refine persist_writes (fun s hs => ?_) (fun s hs => ?_) (gatheredBytes c u)
  · exact moved_of_same hs rfl rfl fun p k => fileAt_createDirAll s .spendable p k
  · exact (hs.spendable _).trans hfresh.2

/-- The removal of what has been joined. -/
theorem joined_removes (codec : DescriptorCodec δ) (hjoins : Joins c u) :
    Holds (Remains c u (fun _ _ => False) [])
      (do
        removeDir c .removeProcessing .processing
        pure (.ok ()) : Prog (Disk δ) (Except MigrationError Unit))
      (onExcept (fun _ => Remains c u (fun p k => p = .processing ∧ Removed codec c u p k) [])
        fun _ _ => False)
      (Joining codec c u) := by
  have hremoved (k : FileName) : Removed codec c u .processing k ↔
      k ∈ removedNames c .removeProcessing (foundDir c u .processing) :=
    and_iff_right hjoins
  refine holds_bind (holds_weaken (removeDir_remains (fun _ h => h) hremoved) (fun _ h => h)
    (fun _ _ h => h) fun s hs => ?_) fun _ => holds_pure fun s hs => ?_
  · obtain ⟨gone, hgone, hs⟩ := hs
    exact ⟨gone, fun p k hk => (hgone p k hk).resolve_left fun h => h, hs⟩
  · exact remains_congr hs fun p k => or_iff_right fun h => h

/-- **JOINED**: how the joining pass ends, and what every state on its way is. -/
theorem concatenate_joins (codec : DescriptorCodec δ) (hfresh : FreshKey c u)
    (hbegins : Begins c u) (hmoves : MovesThrough c u) :
    Holds (fun s => MovedBy (Goes c) u [] s ∧
        ((s.dirs .processing).isSome = true ↔ HasProcessing c u))
      (concatenateProcessingOutputs c)
      (onExcept (fun _ s => JoinsThrough c u ∧
          Remains c u (fun p k => p = .processing ∧ Removed codec c u p k) [] s)
        fun _ s => ¬ JoinsThrough c u ∧ Writing (MovedBy (Goes c) u []) c (gatheredBytes c u) s)
      (fun s => Writing (MovedBy (Goes c) u []) c (gatheredBytes c u) s ∨
        Joining codec c u s) := by
  refine holds_bind (holds_look (Q := fun dir s => (MovedBy (Goes c) u [] s ∧
    ((s.dirs .processing).isSome = true ↔ HasProcessing c u)) ∧ s.dirs .processing = dir)
    fun s hs => ⟨hs, rfl⟩) fun dir => ?_
  refine holds_fixed fun s hs => ?_
  obtain ⟨⟨hs, hhas⟩, hdir⟩ := hs
  cases dir with
  | none =>
      have hnone : ¬ HasProcessing c u := fun h => by
        have hsome := hhas.mpr h
        rw [hdir] at hsome
        cases hsome
      refine holds_pure ?_
      rintro t rfl
      exact ⟨fun h => absurd h hnone, movedBy_remains (fun h => hnone h.2.2.1) hs⟩
  | some m =>
      have hprocessing : HasProcessing c u := hhas.mp (by rw [hdir]; rfl)
      obtain rfl : m = gatheredDir c u := by
        rw [← (movedBy_found hs).2.1, filesOf, hdir]
        rfl
      refine holds_ite (fun hread => holds_pure ?_) fun hread => ?_
      · rintro t rfl
        refine ⟨fun h => ?_, Or.inl hs⟩
        cases hread.symm.trans (h hprocessing).1
      have hreads : c.readDirFails .readProcessing = false := Bool.not_eq_true _ ▸ hread
      refine holds_ite (fun hnil => holds_pure ?_) fun hne => ?_
      · rintro t rfl
        exact ⟨fun _ => ⟨hreads, Or.inl hnil⟩,
          movedBy_remains (fun h => absurd hnil h.2.2.2.2) hs⟩
      have hwrote (t : Disk δ) (ht : Wrote (MovedBy (Goes c) u []) c (gatheredBytes c u) t) :
          Joins c u ∧ Remains c u (fun _ _ => False) [] t :=
        wrote_joins hbegins hmoves hprocessing hreads hne ht
      -- the write, and after it the removal of what was joined
      refine holds_bind (holds_weaken (persist_joins hfresh) (fun t ht => ht ▸ hs)
        (fun _ _ h => h) fun t ht => ht.imp_right fun h => ?_) fun r => ?_
      · exact ⟨_, fun _ _ h => h.elim, (hwrote t h).2⟩
      cases r with
      | error e =>
          refine holds_pure fun t ht => ⟨fun h => ?_, ht.2⟩
          exact (h hprocessing).2.elim hne ht.1
      | ok _ =>
          refine holds_fixed fun t ht => ?_
          obtain ⟨hjoins, hremains⟩ := hwrote t ht
          refine holds_weaken (joined_removes codec hjoins) (fun v hv => hv ▸ hremains)
            (fun r v hv => ?_) fun v hv => Or.inr hv
          cases r with
          | error e => exact hv.elim
          | ok _ => exact ⟨hjoins.2.2.2.1, hv⟩

/-! ## Reading and tracking -/

/-- The scan gets past the descriptors of `done`: neither call fails there. -/
def Passes (codec : DescriptorCodec δ) (c : MigrationCalls) (n : FileName) (done : List δ) :
    Prop :=
  c.positionFails n (encodeAll codec done).length = false ∧
    c.decodeFails n (encodeAll codec done).length = false

/-- How far the scan has come in the file. -/
theorem offset_encodeAll (done ds : List δ) :
    (encodeAll codec (done ++ ds)).length - (encodeAll codec ds).length =
      (encodeAll codec done).length := by
  rw [encodeAll_append, List.length_append, Nat.add_sub_cancel_right]

theorem descriptorAt_passes (hopen : c.openFails n = false) (hmeta : c.metadataFails n = false)
    {done : List δ} {e : δ} {ds : List δ} (hpasses : Passes codec c n done) :
    descriptorAt c codec n (encodeAll codec (done ++ e :: ds)).length
      (encodeAll codec (e :: ds)) = some (e, encodeAll codec ds) := by
  rw [descriptorAt, offset_encodeAll, hopen, hmeta, hpasses.1, hpasses.2]
  exact codec.read_encode e _

/-- A call that fails ends the scan. -/
theorem descriptorAt_stops {done ds : List δ} (hstops : ¬ Passes codec c n done) :
    descriptorAt c codec n (encodeAll codec (done ++ ds)).length (encodeAll codec ds) = none := by
  rw [descriptorAt, offset_encodeAll, if_pos]
  rw [Passes] at hstops
  cases hposition : c.positionFails n (encodeAll codec done).length <;>
    cases hdecode : c.decodeFails n (encodeAll codec done).length <;> simp_all

/-- One descriptor less before `d`. -/
theorem passes_cons {P : List δ → Prop} {done ds : List δ} {e : δ} :
    (∃ before after, e :: ds = before ++ d :: after ∧
        ∀ front, front <+: before → P (done ++ front)) ↔
      P done ∧ (d = e ∨ ∃ before after, ds = before ++ d :: after ∧
        ∀ front, front <+: before → P (done ++ [e] ++ front)) := by
  constructor
  · rintro ⟨before, after, hsplit, hfront⟩
    have hdone := hfront [] List.nil_prefix
    rw [List.append_nil] at hdone
    refine ⟨hdone, ?_⟩
    rcases List.cons_eq_append_iff.mp hsplit with ⟨rfl, htail⟩ | ⟨before', rfl, rfl⟩
    · exact Or.inl (List.cons.inj htail).1
    · refine Or.inr ⟨before', after, rfl, fun front hprefix => ?_⟩
      rw [List.append_assoc, List.singleton_append]
      exact hfront (e :: front) ((List.prefix_cons_inj e).mpr hprefix)
  · rintro ⟨hdone, rfl | ⟨before, after, rfl, hfront⟩⟩
    · refine ⟨[], ds, rfl, fun front hprefix => ?_⟩
      rw [List.prefix_nil.mp hprefix, List.append_nil]
      exact hdone
    · refine ⟨e :: before, after, rfl, fun front hprefix => ?_⟩
      rcases List.prefix_cons_iff.mp hprefix with rfl | ⟨front', rfl, hprefix'⟩
      · rw [List.append_nil]
        exact hdone
      · have hpasses := hfront front' hprefix'
        rwa [List.append_assoc, List.singleton_append] at hpasses

/-- Where the calls of a scan of descriptors get to. -/
theorem mem_scan_encodeAll (hopen : c.openFails n = false) (hmeta : c.metadataFails n = false)
    (done ds : List δ) :
    d ∈ scan (descriptorAt c codec n (encodeAll codec (done ++ ds)).length)
        (encodeAll codec ds) ↔
      ∃ before after, ds = before ++ d :: after ∧ ∀ front, front <+: before →
        Passes codec c n (done ++ front) := by
  -- over the descriptors ahead, with any number of them read before
  induction ds generalizing done with
  | nil =>
      have hstop : descriptorAt c codec n (encodeAll codec (done ++ [])).length
          (encodeAll codec []) = none := (descriptorAt_consuming _).nil
      rw [scan_stop hstop]
      simp
  | cons e ds ih =>
      rw [passes_cons]
      by_cases hpasses : Passes codec c n done
      · have hrest := ih (done ++ [e])
        rw [List.append_assoc, List.singleton_append] at hrest
        rw [scan_next (descriptorAt_consuming _) (descriptorAt_passes hopen hmeta hpasses),
          List.mem_cons, hrest]
        exact (and_iff_right hpasses).symm
      · rw [scan_stop (descriptorAt_stops hpasses)]
        exact iff_of_false List.not_mem_nil fun h => hpasses h.1

/-- What a listed file of descriptors gives is what can be read from it. -/
theorem mem_scan_iff (hwf : WellFormed codec bytes) (hread : c.readDirFails .readSpendable = false)
    (hentry : c.entryFails .readSpendable n = false) :
    d ∈ scan (descriptorAt c codec n bytes.length) bytes ↔ ReadFrom codec c n bytes d := by
  obtain ⟨ds, rfl⟩ := hwf
  by_cases hcalls : c.openFails n = false ∧ c.metadataFails n = false
  · obtain ⟨hopen, hmeta⟩ := hcalls
    have hscan : d ∈ scan (descriptorAt c codec n (encodeAll codec ds).length)
        (encodeAll codec ds) ↔ ∃ before after, ds = before ++ d :: after ∧
          ∀ front, front <+: before →
            c.positionFails n (encodeAll codec front).length = false ∧
              c.decodeFails n (encodeAll codec front).length = false :=
      mem_scan_encodeAll hopen hmeta [] ds
    rw [hscan]
    constructor
    · rintro ⟨before, after, rfl, hfront⟩
      exact ⟨hread, hentry, hopen, hmeta, before, after, rfl, hfront⟩
    · rintro ⟨-, -, -, -, before, after, hbytes, hfront⟩
      exact ⟨before, after, encodeAll_injective hbytes, hfront⟩
  · have hstop : descriptorAt c codec n (encodeAll codec ds).length (encodeAll codec ds)
        = none := by
      rw [descriptorAt, if_pos]
      cases hopen : c.openFails n <;> cases hmeta : c.metadataFails n <;> simp_all
    rw [scan_stop hstop]
    constructor
    · exact fun h => (List.not_mem_nil h).elim
    · exact fun h => absurd ⟨h.2.2.1, h.2.2.2.1⟩ hcalls

/-- **READ**: the outputs are what can be read from the files of the directory. -/
theorem mem_readAll_iff (hwf : ∀ n bytes, fileAt s .spendable n = some bytes →
    WellFormed codec bytes) :
    d ∈ readAllSpendableOutputs c codec s ↔
      ∃ n bytes, fileAt s .spendable n = some bytes ∧ ReadFrom codec c n bytes d := by
  unfold readAllSpendableOutputs
  unfold fileAt at hwf ⊢
  cases hdir : s.dirs .spendable with
  | none => simp
  | some m =>
      rw [hdir] at hwf
      simp only [Option.bind_some] at hwf ⊢
      by_cases hread : c.readDirFails .readSpendable = true
      · rw [if_pos hread]
        constructor
        · exact fun h => (List.not_mem_nil h).elim
        · rintro ⟨n, bytes, -, h⟩
          cases hread.symm.trans h.1
      · have hreads : c.readDirFails .readSpendable = false := Bool.not_eq_true _ ▸ hread
        -- file by file, the loop appends what a scan of the file gives
        have hfold : (fun outputs n => if c.entryFails .readSpendable n then outputs
              else readOutputsFromFile c codec n ((m[n]?).getD []) outputs)
            = fun outputs n => outputs ++ if c.entryFails .readSpendable n then []
              else scan (descriptorAt c codec n ((m[n]?).getD []).length) ((m[n]?).getD []) := by
          funext outputs n
          split
          · exact (List.append_nil _).symm
          · exact readOutputsFromFile_scan _ _
        rw [if_neg hread, hfold, ← List.flatMap_eq_foldl, List.mem_flatMap]
        constructor
        · rintro ⟨n, -, hd⟩
          split at hd
          · exact (List.not_mem_nil hd).elim
          · rename_i hentry
            cases hn : m[n]? with
            | none =>
                have hstop : descriptorAt c codec n ((none : Option Bytes).getD []).length
                    ((none : Option Bytes).getD []) = none := (descriptorAt_consuming _).nil
                rw [hn, scan_stop hstop] at hd
                exact (List.not_mem_nil hd).elim
            | some bytes =>
                rw [hn] at hd
                exact ⟨n, bytes, hn,
                  (mem_scan_iff (hwf n bytes hn) hreads (Bool.not_eq_true _ ▸ hentry)).mp hd⟩
        · rintro ⟨n, bytes, hn, hd⟩
          refine ⟨n, mem_listing hn, ?_⟩
          rw [if_neg (by simp [hd.2.1]), hn]
          exact (mem_scan_iff (hwf n bytes hn) hreads hd.2.1).mpr hd

/-! ## What is spared -/

/-- What is read from a file is in it. -/
theorem readFrom_contains (h : ReadFrom codec c n bytes d) : Contains codec bytes d := by
  obtain ⟨-, -, -, -, before, after, rfl, -⟩ := h
  exact contains_encodeAll.mpr (by simp)

/-- Where a descriptor is safe once some files are gone. -/
theorem remains_safe {gone : Place → FileName → Prop} {outputs : List δ}
    (hs : Remains c u gone outputs s) : Safe codec s d ↔ (d ∈ u.tracked ∨ d ∈ outputs) ∨
      ∃ (p : Place) (n : FileName) (bytes : Bytes), ¬ gone p n ∧
        (foundDir c u p)[n]? = some bytes ∧ Contains codec bytes d := by
  rw [Safe, hs.tracked, List.mem_append]
  refine or_congr_right (exists_congr fun p => exists_congr fun n => exists_congr fun bytes => ?_)
  by_cases hn : gone p n
  · rw [hs.removed p n hn]
    simp [hn]
  · rw [hs.stays p n hn]
    simp [hn]

/-- A descriptor that is spared is safe on the way. -/
theorem spared_safe {gone : Place → FileName → Prop} {outputs : List δ}
    (hs : Remains c u gone outputs s) (hgone : ∀ p k, gone p k → Removed codec c u p k)
    (hread : ∀ n bytes, (spendableDir c u)[n]? = some bytes → ReadFrom codec c n bytes d →
      gone .spendable n → d ∈ outputs)
    (hd : Spared codec c u d) : Safe codec s d := by
  rw [remains_safe hs]
  cases hd with
  | accepted h => exact Or.inl (Or.inl h)
  | stays hfile hd hstays => exact Or.inr ⟨_, _, _, fun h => hstays (hgone _ _ h), hfile, hd⟩
  | @read n bytes hfile hd hclears =>
      by_cases hn : gone .spendable n
      · exact Or.inl (Or.inr (hread n bytes hfile hd hn))
      · exact Or.inr ⟨.spendable, n, bytes, hn, hfile, readFrom_contains hd⟩

/-- What is safe at the end was spared. -/
theorem safe_spared {gone : Place → FileName → Prop} {outputs : List δ}
    (hs : Remains c u gone outputs s) (hgone : ∀ p k, Removed codec c u p k → gone p k)
    (hread : d ∈ outputs → Clears codec c u ∧ ∃ (n : FileName) (bytes : Bytes),
      (spendableDir c u)[n]? = some bytes ∧ ReadFrom codec c n bytes d)
    (hd : Safe codec s d) : Spared codec c u d := by
  rcases (remains_safe hs).mp hd with (h | h) | ⟨p, n, bytes, hn, hfile, hcont⟩
  · exact .accepted h
  · obtain ⟨hclears, n, bytes, hfile, hfrom⟩ := hread h
    exact .read hfile hfrom hclears
  · exact .stays hfile hcont fun h => hn (hgone p n h)

/-- What the removals would find was there at first. -/
theorem found_safe (hwf : AllWellFormed codec u) (hfile : (foundDir c u p)[n]? = some bytes)
    (hd : Contains codec bytes d) : Safe codec u d := by
  have hgathered {n : FileName} {bytes : Bytes} (hfile : (gatheredDir c u)[n]? = some bytes)
      (hd : Contains codec bytes d) : Safe codec u d := by
    rw [gatheredDir_get] at hfile
    split at hfile
    · rcases Option.or_eq_some_iff.mp hfile with hpend | ⟨-, hproc⟩
      · exact Or.inr ⟨.pending, n, bytes, hpend, hd⟩
      · exact Or.inr ⟨.processing, n, bytes, hproc, hd⟩
    · exact Or.inr ⟨.processing, n, bytes, hfile, hd⟩
  cases p with
  | pending =>
      rw [foundDir, leftDir_get] at hfile
      split at hfile
      · cases hfile
      · exact Or.inr ⟨.pending, n, bytes, hfile, hd⟩
  | processing => exact hgathered hfile hd
  | spendable =>
      rw [foundDir, spendableDir_get] at hfile
      split at hfile
      · obtain rfl := Option.some.inj hfile
        obtain ⟨k, b, hk, hcont⟩ := gatheredBytes_contains hwf hd
        exact hgathered hk hcont
      · exact Or.inr ⟨.spendable, n, bytes, hfile, hd⟩

/-- What is spared was safe at first. -/
theorem spared_start (hwf : AllWellFormed codec u) (hd : Spared codec c u d) :
    Safe codec u d := by
  cases hd with
  | accepted h => exact Or.inl h
  | stays hfile hd _ => exact found_safe hwf hfile hd
  | read hfile hd _ => exact found_safe (p := .spendable) hwf hfile (readFrom_contains hd)

/-- An attempt that comes to no removal spares what is safe. -/
theorem spared_iff_safe (h₀ : Start codec c u) (hjoins : ¬ Joins c u)
    (hclears : ¬ Clears codec c u) : Spared codec c u d ↔ Safe codec u d := by
  have hstays (p : Place) (n : FileName) : ¬ Removed codec c u p n := by
    cases p with
    | pending => exact fun h => hclears h.1
    | processing => exact fun h => hjoins h.1
    | spendable => exact fun h => hclears h.1
  refine ⟨spared_start h₀.wellFormed, ?_⟩
  rintro (h | ⟨p, n, bytes, hfile, hd⟩)
  · exact .accepted h
  cases p with
  | pending =>
      by_cases hn : Goes c n
      · have hfound : (foundDir c u .processing)[n]? = some bytes := by
          rw [foundDir, gatheredDir_get, if_pos hn, hfile, Option.some_or]
        exact .stays hfound hd (hstays _ _)
      · have hfound : (foundDir c u .pending)[n]? = some bytes := by
          rw [foundDir, leftDir_get, if_neg hn, hfile]
        exact .stays hfound hd (hstays _ _)
  | processing =>
      have hfree : fileAt u .pending n = none :=
        (h₀.apart n).resolve_right (ne_of_eq_of_ne hfile (Option.some_ne_none bytes))
      have hfound : (foundDir c u .processing)[n]? = some bytes := by
        rw [foundDir, gatheredDir_get, hfree, Option.none_or, ite_self, hfile]
      exact .stays hfound hd (hstays _ _)
  | spendable =>
      have hfound : (foundDir c u .spendable)[n]? = some bytes := by
        rw [foundDir, spendableDir_get, if_neg fun h => hjoins h.1, hfile]
      exact .stays hfound hd (hstays _ _)

/-! ## The whole attempt -/

/-- The sweeper is asked only when there is something, and its refusal ends the
    attempt. -/
theorem trackOutputs_remains {gone : Place → FileName → Prop} {outputs : List δ}
    (hbegins : Begins c u) (hmoves : MovesThrough c u) (hjoins : JoinsThrough c u)
    (hout : ∀ d, d ∈ outputs ↔ ∃ (n : FileName) (bytes : Bytes),
      (spendableDir c u)[n]? = some bytes ∧ ReadFrom codec c n bytes d) :
    Holds (Remains c u gone []) (trackOutputs c outputs)
      (onExcept (fun _ s => Clears codec c u ∧ Remains c u gone outputs s)
        fun _ s => ¬ Clears codec c u ∧ Remains c u gone [] s)
      (fun s => Clears codec c u ∧ Remains c u gone outputs s) := by
  refine holds_ite (fun hnone => holds_pure fun s hs => ?_) fun hsome => ?_
  · obtain rfl := List.eq_nil_of_length_eq_zero hnone
    refine ⟨⟨hbegins, hmoves, hjoins, fun ⟨n, bytes, d, hfile, hd⟩ => ?_⟩, hs⟩
    exact (List.not_mem_nil ((hout d).mpr ⟨n, bytes, hfile, hd⟩)).elim
  refine holds_ite (fun hfails => holds_pure fun s hs => ⟨fun hclears => ?_, hs⟩)
    fun htracks => ?_
  · obtain ⟨d, hd⟩ := List.exists_mem_of_length_pos (Nat.pos_of_ne_zero hsome)
    obtain ⟨n, bytes, hfile, hfrom⟩ := (hout d).mp hd
    cases hfails.symm.trans (hclears.2.2.2 ⟨n, bytes, d, hfile, hfrom⟩)
  · have hclears : Clears codec c u :=
      ⟨hbegins, hmoves, hjoins, fun _ => Bool.not_eq_true _ ▸ htracks⟩
    refine holds_bind (Q := fun _ s => Clears codec c u ∧ Remains c u gone outputs s)
      (holds_act fun s hs => ?_) fun _ => holds_pure fun s hs => hs
    have hremains : Remains c u gone outputs { s with tracked := s.tracked ++ outputs } := by
      refine ⟨?_, hs.stays, hs.removed⟩
      simp [hs.tracked]
    exact ⟨⟨hclears, hremains⟩, hclears, hremains⟩

/-- The sentinel is none of the files that matter. -/
theorem writeSentinel_keeps {P : Disk δ → Prop}
    (hP : ∀ s sentinel, P s → P { s with sentinel := sentinel }) :
    Holds P (writeSentinel c) (fun _ => P) P := by
  rw [writeSentinel]
  cases c.sentinelFails with
  | none => exact holds_act fun s hs => ⟨hP s _ hs, hP s _ hs⟩
  | some created => exact holds_act fun s hs => ⟨hP s _ hs, hP s _ hs⟩

/-- The two removals at the end. -/
theorem cleanup_remains {outputs : List δ} (hclears : Clears codec c u)
    (hout : ∀ d, d ∈ outputs ↔ ∃ (n : FileName) (bytes : Bytes),
      (spendableDir c u)[n]? = some bytes ∧ ReadFrom codec c n bytes d) :
    Holds (Remains c u (fun p k => p = .processing ∧ Removed codec c u p k) outputs)
      (do
        removeDir c .removeSpendable .spendable
        removeDir c .removePending .pending
        writeSentinel c
        pure (.ok outputs.length) : Prog (Disk δ) (Except MigrationError Nat))
      (fun _ s => ∀ d, Safe codec s d ↔ Spared codec c u d)
      (fun s => ∀ d, Spared codec c u d → Safe codec s d) := by
  have hspared {gone : Place → FileName → Prop} {s : Disk δ} (hs : Remains c u gone outputs s)
      (hgone : ∀ p k, gone p k → Removed codec c u p k) (d : δ) (hd : Spared codec c u d) :
      Safe codec s d :=
    spared_safe hs hgone (fun n bytes hfile hfrom _ => (hout d).mpr ⟨n, bytes, hfile, hfrom⟩) hd
  have hspendable (k : FileName) : Removed codec c u .spendable k ↔
      k ∈ removedNames c .removeSpendable (foundDir c u .spendable) := and_iff_right hclears
  have hpending (k : FileName) : Removed codec c u .pending k ↔
      k ∈ removedNames c .removePending (foundDir c u .pending) := and_iff_right hclears
  refine holds_bind (holds_weaken (removeDir_remains (by simp) hspendable) (fun _ h => h)
    (fun _ _ h => h) fun s ⟨gone, hgone, hs⟩ => ?_) fun _ => ?_
  · refine hspared hs fun p k hk => ?_
    rcases hgone p k hk with h | h
    · exact h.2
    · exact h.2
  refine holds_bind (holds_weaken (removeDir_remains (by simp) hpending) (fun _ h => h)
    (fun _ _ h => h) fun s ⟨gone, hgone, hs⟩ => ?_) fun _ => ?_
  · refine hspared hs fun p k hk => ?_
    rcases hgone p k hk with (h | h) | h
    · exact h.2
    · exact h.2
    · exact h.2
  -- after both, what is gone is all that the removals get to
  have hall (p : Place) (k : FileName) :
      ((p = .processing ∧ Removed codec c u p k ∨ p = .spendable ∧ Removed codec c u p k) ∨
        p = .pending ∧ Removed codec c u p k) ↔ Removed codec c u p k := by
    cases p <;> simp
  have hexact {s : Disk δ} (hs : Remains c u (Removed codec c u) outputs s) (d : δ) :
      Safe codec s d ↔ Spared codec c u d := by
    constructor
    · exact safe_spared hs (fun _ _ h => h) fun h => ⟨hclears, (hout d).mp h⟩
    · exact hspared hs (fun _ _ h => h) d
  refine holds_bind (holds_weaken (writeSentinel_keeps (P := Remains c u (Removed codec c u)
    outputs) fun s _ hs => ⟨hs.tracked, hs.stays, hs.removed⟩)
    (fun s hs => remains_congr hs hall) (fun _ _ h => h) fun s hs d => (hexact hs d).mpr)
    fun _ => holds_pure fun s hs => hexact hs

/-- The attempt begins where neither of the first two checks ends it. -/
theorem begins_iff : Begins c u ↔ ¬ (u.sentinel && !c.statFails none) = true ∧
    ¬ (!pathExists c .pending u && !pathExists c .processing u &&
      !pathExists c .spendable u) = true := by
  rw [Begins]
  cases u.sentinel <;> cases c.statFails none <;> cases pathExists c .pending u <;>
    cases pathExists c .processing u <;> cases pathExists c .spendable u <;> simp

/-- From the read on: nothing is lost before the removals, and they follow only what
    the sweeper has accepted. -/
theorem tracking_spares (h₀ : Start codec c u) (hbegins : Begins c u)
    (hmoves : MovesThrough c u) (hjoins : JoinsThrough c u) :
    Holds (Remains c u (fun p k => p = .processing ∧ Removed codec c u p k) [])
      (do
        let outputs ← look (readAllSpendableOutputs c codec)
        match ← trackOutputs c outputs with
        | .error e => pure (.error e)
        | .ok () => do
            removeDir c .removeSpendable .spendable
            removeDir c .removePending .pending
            writeSentinel c
            pure (.ok outputs.length) : Prog (Disk δ) (Except MigrationError Nat))
      (fun _ s => ∀ d, Safe codec s d ↔ Spared codec c u d)
      (fun s => ∀ d, Spared codec c u d → Safe codec s d) := by
  refine holds_fixed fun s hs => ?_
  have hfiles (n : FileName) : fileAt s .spendable n = (spendableDir c u)[n]? :=
    hs.stays .spendable n fun h => nomatch h.1
  have hread (d : δ) : d ∈ readAllSpendableOutputs c codec s ↔
      ∃ (n : FileName) (bytes : Bytes), (spendableDir c u)[n]? = some bytes ∧
        ReadFrom codec c n bytes d := by
    simp only [← hfiles]
    refine mem_readAll_iff fun n bytes hfile => ?_
    rw [hfiles] at hfile
    exact spendableDir_wellFormed h₀.wellFormed hfile
  refine holds_bind (holds_look (Q := fun outputs t => t = s ∧
    outputs = readAllSpendableOutputs c codec s) (by rintro t rfl; exact ⟨rfl, rfl⟩))
    fun outputs => ?_
  refine holds_fixed fun t ht => ?_
  obtain ⟨rfl, rfl⟩ := ht
  refine holds_bind (holds_weaken (trackOutputs_remains hbegins hmoves hjoins hread)
    (fun w hw => hw ▸ hs) (fun _ _ h => h) fun w hw => ?_) fun tracked => ?_
  · refine fun d => spared_safe hw.2 (fun p k hk => hk.2) fun n bytes hfile hfrom _ => ?_
    exact (hread d).mpr ⟨n, bytes, hfile, hfrom⟩
  cases tracked with
  | error e =>
      -- refused, and only the processing directory is gone
      refine holds_pure fun w hw d => ?_
      obtain ⟨hfails, hw⟩ := hw
      constructor
      · refine safe_spared hw (fun p k hk => ?_) fun h => (List.not_mem_nil h).elim
        cases p with
        | pending => exact absurd hk.1 hfails
        | processing => exact ⟨rfl, hk⟩
        | spendable => exact absurd hk.1 hfails
      · exact spared_safe hw (fun p k hk => hk.2) fun n bytes _ _ hk => nomatch hk.1
  | ok _ =>
      refine holds_fixed fun w hw => ?_
      obtain ⟨hclears, hw⟩ := hw
      exact holds_weaken (cleanup_remains hclears hread) (fun x hx => hx ▸ hw)
        (fun _ _ h => h) fun _ h => h

/-- **SPARED**: at the end exactly what is spared is safe, and all of it on the way. -/
theorem tryMigrate_spares (h₀ : Start codec c u) :
    Holds (fun s => s = u) (tryMigrate c codec)
      (fun _ s => ∀ d, Safe codec s d ↔ Spared codec c u d)
      (fun s => ∀ d, Spared codec c u d → Safe codec s d) := by
  -- where the attempt ends before a removal, nothing that was safe is lost
  have hends {s : Disk δ} (hjoins : ¬ Joins c u) (hclears : ¬ Clears codec c u)
      (hs : ∀ d, Safe codec s d ↔ Safe codec u d) (d : δ) :
      Safe codec s d ↔ Spared codec c u d :=
    (hs d).trans (spared_iff_safe h₀ hjoins hclears).symm
  have hpasses {s : Disk δ} (hs : ∀ d, Safe codec s d ↔ Safe codec u d) (d : δ)
      (hd : Spared codec c u d) : Safe codec s d :=
    (hs d).mpr (spared_start h₀.wellFormed hd)
  have hidle (hbegins : ¬ Begins c u) (s : Disk δ)
      (hs : ∀ d, Safe codec s d ↔ Safe codec u d) (d : δ) :
      Safe codec s d ↔ Spared codec c u d :=
    hends (fun h => hbegins h.1) (fun h => hbegins h.1) hs d
  refine holds_bind (holds_look (Q := fun done s => s = u ∧
    done = (u.sentinel && !c.statFails none)) (by rintro s rfl; exact ⟨rfl, rfl⟩))
    fun done => ?_
  refine holds_ite (fun hdone => holds_pure ?_) fun hdone => ?_
  · rintro s ⟨rfl, rfl⟩
    exact hidle (fun h => (begins_iff.mp h).1 hdone) s fun d => Iff.rfl
  refine holds_bind (holds_look (Q := fun empty s => (s = u ∧
    done = (u.sentinel && !c.statFails none)) ∧ empty = (!pathExists c .pending u &&
      !pathExists c .processing u && !pathExists c .spendable u))
    (by rintro s ⟨rfl, hd⟩; exact ⟨⟨rfl, hd⟩, rfl⟩)) fun empty => ?_
  refine holds_ite (fun hempty => ?_) fun hempty => ?_
  · refine holds_fixed fun s hs => ?_
    obtain ⟨⟨rfl, -⟩, rfl⟩ := hs
    refine holds_bind (holds_weaken (writeSentinel_keeps
      (P := fun t => ∀ d, Safe codec t d ↔ Safe codec s d) fun _ _ h => h)
      (by rintro t rfl d; exact Iff.rfl) (fun _ _ h => h) fun t ht => hpasses ht)
      fun _ => holds_pure fun t ht => hidle (fun h => (begins_iff.mp h).2 hempty) t ht
  refine holds_fixed fun s hs => ?_
  obtain ⟨⟨rfl, rfl⟩, rfl⟩ := hs
  have hbegins : Begins c s := begins_iff.mpr ⟨hdone, hempty⟩
  refine holds_bind (holds_weaken (movePending_moves s) (fun _ h => h) (fun _ _ h => h)
    fun t ht => ?_) fun moved => ?_
  · obtain ⟨rest, ht⟩ := ht
    exact hpasses fun d => movedBy_safe h₀.apart ht
  cases moved with
  | error e =>
      refine holds_pure fun t ht => ?_
      obtain ⟨hfails, rest, ht⟩ := ht
      exact hends (fun h => hfails h.2.1) (fun h => hfails h.2.1)
        fun d => movedBy_safe h₀.apart ht
  | ok _ =>
  refine holds_fixed fun t ht => ?_
  obtain ⟨hmoves, ht⟩ := ht
  refine holds_bind (holds_weaken (concatenate_joins codec h₀.fresh hbegins hmoves)
    (fun v hv => hv ▸ ht) (fun _ _ h => h) fun v hv => ?_) fun joined => ?_
  · rcases hv with hv | ⟨gone, hgone, hv⟩
    · exact hpasses fun d => writing_safe h₀ hv
    · refine fun d => spared_safe hv (fun p k hk => (hgone p k hk).2) fun n bytes _ _ hk => ?_
      cases (hgone _ _ hk).1
  cases joined with
  | error e =>
      refine holds_pure fun v hv => ?_
      obtain ⟨hfails, hv⟩ := hv
      exact hends (fun h => hfails h.2.2.2.1) (fun h => hfails h.2.2.1)
        fun d => writing_safe h₀ hv
  | ok _ =>
      refine holds_fixed fun v hv => ?_
      obtain ⟨hjoins, hv⟩ := hv
      exact holds_weaken (tracking_spares h₀ hbegins hmoves hjoins) (fun w hw => hw ▸ hv)
        (fun _ _ h => h) fun _ h => h

/-- **KEPT OR NOT**: a descriptor is, in every state of the attempt, in a file of one of
    the three directories or accepted by the sweeper if and only if it is spared. -/
theorem migration_keeps_iff_spared (codec : DescriptorCodec δ) (c : MigrationCalls)
    (s₀ : Disk δ) (d : δ) (h₀ : Start codec c s₀) :
    (∀ s ∈ reached (tryMigrate c codec) s₀, Safe codec s d) ↔ Spared codec c s₀ d := by
  have hspares := tryMigrate_spares h₀
  constructor
  · intro hall
    have hfinal := hall _ (List.mem_append_right _ List.mem_cons_self)
    exact ((hspares s₀ rfl).1 d).mp hfinal
  · intro hd s hs
    have hholds : Holds (fun t => t = s₀) (tryMigrate c codec)
        (fun _ t => Safe codec t d) (fun t => Safe codec t d) :=
      holds_weaken hspares (fun _ h => h) (fun _ t ht => (ht d).mpr hd) fun t ht => ht d hd
    exact reached_holds (C := fun t => Safe codec t d) hholds
      (spared_start h₀.wellFormed hd) hs

/-- A file that moves is joined, read and accepted. -/
theorem migration_keeps_onePending :
    Start byteCodec allSucceed (onePending (List.replicate 64 0x62)) ∧
      ∀ s ∈ reached (tryMigrate allSucceed byteCodec) (onePending (List.replicate 64 0x62)),
        Safe byteCodec s 8 := by
  have hjoins : Joins allSucceed (onePending (List.replicate 64 0x62)) ∧
      gatheredBytes allSucceed (onePending (List.replicate 64 0x62)) = [7, 8] := by
    decide +kernel
  obtain ⟨hjoins, hbytes⟩ := hjoins
  refine ⟨onePending_start _,
    (migration_keeps_iff_spared byteCodec allSucceed _ 8 (onePending_start _)).mpr ?_⟩
  have hfile : (spendableDir allSucceed (onePending (List.replicate 64 0x62)))[allSucceed.key]? =
      some [7, 8] := by
    rw [spendableDir_get, if_pos ⟨hjoins, rfl⟩, hbytes]
  refine .read hfile ?_ ?_
  · exact ⟨rfl, rfl, rfl, rfl, [7], [], rfl, fun _ _ => ⟨rfl, rfl⟩⟩
  · exact ⟨hjoins.1, hjoins.2.1, hjoins.2.2.2.1, fun _ => rfl⟩

/-- **DELETED UNTRACKED**: no operation fails, and the pending file whose name is not
    64 bytes long is removed with its directory. -/
theorem misnamed_file_deleted :
    ¬ ∀ (c : MigrationCalls) (s₀ s : Disk UInt8) (d : UInt8), Start byteCodec c s₀ →
      Safe byteCodec s₀ d → s ∈ reached (tryMigrate c byteCodec) s₀ →
      Safe byteCodec s d := by
  intro hall
  have hsafe := hall allSucceed (onePending [0x62]) _ 8 (onePending_start _)
    (onePending_safe _) (List.mem_append_right _ List.mem_cons_self)
  have hgone : (tryMigrate allSucceed byteCodec (onePending [0x62])).final.tracked = [] ∧
      ∀ p ∈ [Place.pending, .processing, .spendable],
        (tryMigrate allSucceed byteCodec (onePending [0x62])).final.dirs p = none := by
    decide +kernel
  rcases hsafe with htr | ⟨p, n, bytes, hfile, -⟩
  · rw [hgone.1] at htr
    cases htr
  · have hnone := hgone.2 p (by cases p <;> simp)
    rw [fileAt, hnone] at hfile
    cases hfile

end SweepKeeps
