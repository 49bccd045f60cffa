import Scorer.CrashProgramProofs
import Mathlib

/-! # The migration of deprecated spendable outputs

    `sweep.rs` moves descriptor files from `pending_spendable_outputs` to
    `processing_spendable_outputs`, writes their concatenation as one file of
    `spendable_outputs`, hands the descriptors of that directory to the sweeper and
    removes the directories.  Each filesystem operation may fail; what an attempt
    meets is a `MigrationCalls`, keyed by the operation and the file.

    * `tryMigrate` is the attempt, with every state it passes through;
    * `fileAt` and its lemmas say what each operation does to each file. -/

namespace SweepFiles

open CrashProgram

/-- The content of a file. -/
abbrev Bytes := List UInt8

/-- The name of a file, in bytes. -/
abbrev FileName := List UInt8

/-- A directory of files. -/
abbrev Dir := Std.ExtTreeMap FileName Bytes

/-- The three directories. -/
inductive Place where
  | pending
  | processing
  | spendable
  deriving DecidableEq, Repr

/-- The directories that exist, whether the sentinel file does, and the descriptors
    the sweeper has accepted. -/
structure Disk (δ : Type) where
  sentinel : Bool
  dirs     : Place → Option Dir
  tracked  : List δ

/-- The encoding of a `SpendableOutputDescriptor`: it says where it ends, and a
    successful read takes at least one byte. -/
structure DescriptorCodec (δ : Type) where
  encode : δ → Bytes
  read : Bytes → Option (δ × Bytes)
  read_encode : ∀ d rest, read (encode d ++ rest) = some (d, rest)
  read_suffix : ∀ bytes d rest, read bytes = some (d, rest) →
    ∃ used, used ≠ [] ∧ bytes = used ++ rest

/-- `SweepMigrationError`, with the context that its text gives. -/
inductive MigrationError where
  | io (ctx : String)
  | persist
  | trackSpendable
  deriving DecidableEq, Repr

/-- The passes over a directory. -/
inductive Pass where
  | movePending
  | readProcessing
  | removeProcessing
  | readSpendable
  | removeSpendable
  | removePending
  deriving DecidableEq, Repr

/-- Where a write of the store fails: creating the directory, after `n` bytes of
    the temporary file, or renaming it. -/
inductive PersistFailure where
  | directory
  | temporary (n : Nat)
  | rename
  deriving DecidableEq, Repr

/-- What the operations of one attempt come to, the order in which each pass lists
    its directory, and the random name of the new file. -/
structure MigrationCalls where
  statFails      : Option Place → Bool
  order          : Pass → List FileName
  readDirFails   : Pass → Bool
  entryFails     : Pass → FileName → Bool
  createDirFails : FileName → Bool
  renameFails    : FileName → Bool
  readFails      : FileName → Bool
  key            : FileName
  persistFails   : Option PersistFailure
  openFails      : FileName → Bool
  metadataFails  : FileName → Bool
  positionFails  : FileName → Nat → Bool
  decodeFails    : FileName → Nat → Bool
  trackFails     : Bool
  unlinkFails    : Pass → FileName → Bool
  rmdirFails     : Pass → Bool
  sentinelFails  : Option Bool

variable {δ : Type}

/-! ## The operations -/

/-- A directory is replaced, or removed. -/
def setDir (p : Place) (m : Option Dir) (s : Disk δ) : Disk δ :=
  { s with dirs := fun q => if q = p then m else s.dirs q }

/-- `create_dir_all`. -/
def createDirAll (p : Place) (s : Disk δ) : Disk δ :=
  setDir p (some ((s.dirs p).getD ∅)) s

/-- `remove_file`. -/
def unlink (p : Place) (n : FileName) (s : Disk δ) : Disk δ :=
  setDir p ((s.dirs p).map fun m => m.erase n) s

/-- A file is written, with these bytes. -/
def putFile (p : Place) (n : FileName) (bytes : Bytes) (s : Disk δ) : Disk δ :=
  setDir p ((s.dirs p).map fun m => m.insert n bytes) s

/-- The last step of `remove_dir_all`: the directory itself. -/
def rmdir (p : Place) (s : Disk δ) : Disk δ := setDir p none s

/-- The content of a file, if it exists. -/
def fileAt (s : Disk δ) (p : Place) (n : FileName) : Option Bytes :=
  (s.dirs p).bind fun m => m[n]?

/-- `fs::rename` of a file to a name of another directory, or of the same. -/
def renameFile (p : Place) (n : FileName) (q : Place) (n' : FileName) (s : Disk δ) :
    Disk δ :=
  match fileAt s p n with
  | some bytes => putFile q n' bytes (unlink p n s)
  | none => s

/-- The listing of a directory; an `order` that is not one of its names is not
    used. -/
def listing (order : List FileName) (m : Dir) : List FileName :=
  if order.Perm m.keys then order else m.keys

variable (c : MigrationCalls)

/-- `Path::exists`: an error counts as absence. -/
def pathExists (p : Place) (s : Disk δ) : Bool :=
  (s.dirs p).isSome && !c.statFails (some p)

/-- `write_sentinel`: a failed write may still have created the file. -/
def writeSentinel : Prog (Disk δ) Unit :=
  match c.sentinelFails with
  | none => act fun s => { s with sentinel := true }
  | some created => act fun s => { s with sentinel := s.sentinel || created }

/-- One entry of `move_pending_to_processing`. -/
def moveEntry (n : FileName) : Prog (Disk δ) (Except MigrationError Unit) :=
  if c.entryFails .movePending n then pure (.ok ())
  -- otherwise it is likely a temporary file
  else if n.length ≠ 64 then pure (.ok ())
  else if c.createDirFails n then pure (.error (.io "creating processing dir"))
  else do
    act (createDirAll .processing)
    if c.renameFails n then pure (.ok ())
    else do
      act (renameFile .pending n .processing n)
      pure (.ok ())

/-- `move_pending_to_processing`. -/
def movePendingToProcessing : Prog (Disk δ) (Except MigrationError Unit) := do
  match ← look fun s => s.dirs .pending with
  | none => pure (.ok ())
  | some m =>
      if c.readDirFails .movePending then pure (.error (.io "reading pending dir"))
      else forEach (moveEntry c) (listing (c.order .movePending) m)

/-- The bytes of the files of the processing directory that can be read. -/
def readProcessing (m : Dir) : Bytes :=
  (listing (c.order .readProcessing) m).flatMap fun n =>
    if c.entryFails .readProcessing n || c.readFails n then [] else (m[n]?).getD []

/-- The temporary file of a write under `key`: the name and `.0.tmp`. -/
def temporaryName (key : FileName) : FileName := key ++ [0x2e, 0x30, 0x2e, 0x74, 0x6d, 0x70]

/-- `persister.write("spendable_outputs", "", key, bytes)`: a temporary file, then
    a rename. -/
def persist (bytes : Bytes) : Prog (Disk δ) (Except MigrationError Unit) :=
  let temporary := temporaryName c.key
  let growing (n : Nat) (s : Disk δ) : List (Disk δ) :=
    (List.range (n + 1)).map fun i => putFile .spendable temporary (bytes.take i) s
  match c.persistFails with
  | some .directory => pure (.error .persist)
  | some (.temporary n) => do
      act (createDirAll .spendable)
      passing (growing n)
      pure (.error .persist)
  | some .rename => do
      act (createDirAll .spendable)
      passing (growing bytes.length)
      pure (.error .persist)
  | none => do
      act (createDirAll .spendable)
      passing (growing bytes.length)
      act (renameFile .spendable temporary .spendable c.key)
      pure (.ok ())

/-- `best_effort_remove_dir`: the files one by one, then the directory; the first
    failure ends it. -/
def removeDir (pass : Pass) (p : Place) : Prog (Disk δ) Unit := do
  match ← look fun s => s.dirs p with
  | none => pure ()
  | some m =>
      let removed ← forEach (fun n =>
        if c.unlinkFails pass n then pure (.error ())
        else do
          act (unlink p n)
          pure (.ok ())) (listing (c.order pass) m)
      match removed with
      | .error () => pure ()
      | .ok () => if c.rmdirFails pass then pure () else act (rmdir p)

/-- `concatenate_processing_outputs`. -/
def concatenateProcessingOutputs : Prog (Disk δ) (Except MigrationError Unit) := do
  match ← look fun s => s.dirs .processing with
  | none => pure (.ok ())
  | some m =>
      if c.readDirFails .readProcessing then pure (.error (.io "reading processing dir"))
      else if readProcessing c m = [] then pure (.ok ())
      else do
        match ← persist c (readProcessing c m) with
        | .error e => pure (.error e)
        | .ok () => do
            removeDir c .removeProcessing .processing
            pure (.ok ())

variable (codec : DescriptorCodec δ)

/-- The loop of `read_outputs_from_file`, at offset `pos` of `len` bytes with
    `rest` ahead.  A read takes at least one byte, so the fuel does not run out. -/
def readLoop (n : FileName) (len : Nat) :
    (fuel pos : Nat) → (rest : Bytes) → (outputs : List δ) → List δ
  | 0, _, _, outputs => outputs
  | fuel + 1, pos, rest, outputs =>
      if c.positionFails n pos then outputs
      else if pos ≥ len then outputs
      else if c.decodeFails n pos then outputs
      else match codec.read rest with
        | none => outputs
        | some (descriptor, rest') =>
            readLoop n len fuel (pos + (rest.length - rest'.length)) rest'
              (outputs ++ [descriptor])

/-- `read_outputs_from_file`: what it appends to `outputs`. -/
def readOutputsFromFile (n : FileName) (bytes : Bytes) (outputs : List δ) : List δ :=
  if c.openFails n then outputs
  else
    let metadataLen := if c.metadataFails n then 0 else bytes.length
    readLoop c codec n metadataLen (bytes.length + 1) 0 bytes outputs

/-- `read_all_spendable_outputs`. -/
def readAllSpendableOutputs (s : Disk δ) : List δ :=
  match s.dirs .spendable with
  | none => []
  | some m =>
      if c.readDirFails .readSpendable then []
      else (listing (c.order .readSpendable) m).foldl (fun outputs n =>
        if c.entryFails .readSpendable n then outputs
        else readOutputsFromFile c codec n ((m[n]?).getD []) outputs) []

/-- The call of `track_spendable_outputs`, made only when there are outputs. -/
def trackOutputs (outputs : List δ) : Prog (Disk δ) (Except MigrationError Unit) :=
  if outputs.length = 0 then pure (.ok ())
  else if c.trackFails then pure (.error .trackSpendable)
  else do
    act fun s => { s with tracked := s.tracked ++ outputs }
    pure (.ok ())

/-- `try_migrate_deprecated_spendable_outputs`. -/
def tryMigrate : Prog (Disk δ) (Except MigrationError Nat) := do
  if ← look fun s => s.sentinel && !c.statFails none then pure (.ok 0)
  else if ← look fun s => !pathExists c .pending s && !pathExists c .processing s &&
      !pathExists c .spendable s then do
    writeSentinel c
    pure (.ok 0)
  else do
    match ← movePendingToProcessing c with
    | .error e => pure (.error e)
    | .ok () =>
    match ← concatenateProcessingOutputs c with
    | .error e => pure (.error e)
    | .ok () =>
    let outputs ← look (readAllSpendableOutputs c codec)
    match ← trackOutputs c outputs with
    | .error e => pure (.error e)
    | .ok () => do
        removeDir c .removeSpendable .spendable
        removeDir c .removePending .pending
        writeSentinel c
        pure (.ok outputs.length)

/-! ## What an operation does to a file -/

variable (s : Disk δ) (p q : Place) (n k : FileName) (bytes : Bytes)

theorem fileAt_setDir (m : Option Dir) :
    fileAt (setDir p m s) q k = if q = p then m.bind fun m => m[k]? else fileAt s q k := by
  unfold fileAt setDir
  by_cases h : q = p <;> simp [h]

theorem fileAt_createDirAll : fileAt (createDirAll p s) q k = fileAt s q k := by
  rw [createDirAll, fileAt_setDir]
  by_cases h : q = p
  · subst h
    rw [fileAt]
    cases s.dirs q <;> simp
  · rw [if_neg h]

theorem fileAt_unlink :
    fileAt (unlink p n s) q k = if q = p ∧ k = n then none else fileAt s q k := by
  rw [unlink, fileAt_setDir]
  by_cases h : q = p
  · subst h
    rw [fileAt]
    cases hm : s.dirs q with
    | none => simp
    | some m =>
        by_cases hk : k = n
        · simp [hk]
        · simp [hk, Std.ExtTreeMap.getElem?_erase, Ne.symm hk]
  · simp [h]

theorem fileAt_rmdir : fileAt (rmdir p s) q k = if q = p then none else fileAt s q k := by
  rw [rmdir, fileAt_setDir]
  rfl

/-- In a directory that exists. -/
theorem fileAt_putFile (hp : (s.dirs p).isSome) :
    fileAt (putFile p n bytes s) q k =
      if q = p ∧ k = n then some bytes else fileAt s q k := by
  obtain ⟨m, hm⟩ := Option.isSome_iff_exists.mp hp
  rw [putFile, fileAt_setDir, hm]
  by_cases h : q = p
  · subst h
    by_cases hk : k = n
    · simp [hk]
    · simp [hk, fileAt, hm, Std.ExtTreeMap.getElem?_insert, Ne.symm hk]
  · simp [h]

/-- A file that exists moves to a directory that exists. -/
theorem fileAt_renameFile {s : Disk δ} {p q : Place} {n : FileName} (n' : FileName)
    {bytes : Bytes} (hfile : fileAt s p n = some bytes) (hq : (s.dirs q).isSome)
    (r : Place) (k : FileName) :
    fileAt (renameFile p n q n' s) r k =
      if r = q ∧ k = n' then some bytes
      else if r = p ∧ k = n then none else fileAt s r k := by
  have hdir : ((unlink p n s).dirs q).isSome := by
    rw [unlink, setDir]
    by_cases h : q = p
    · subst h
      simpa using hq
    · simpa [h] using hq
  rw [renameFile, hfile]
  simp only
  rw [fileAt_putFile _ _ _ _ _ _ hdir, fileAt_unlink]

theorem renameFile_rest (s : Disk δ) (p q : Place) (n n' : FileName) :
    (renameFile p n q n' s).tracked = s.tracked ∧
      (renameFile p n q n' s).sentinel = s.sentinel := by
  rw [renameFile]
  cases fileAt s p n <;> exact ⟨rfl, rfl⟩

/-- A file that is written under a free name and renamed in its directory. -/
theorem fileAt_replace {s : Disk δ} {p : Place} {temporary : FileName}
    (hp : (s.dirs p).isSome) (hfree : fileAt s p temporary = none) (n : FileName)
    (bytes : Bytes) (q : Place) (k : FileName) :
    fileAt (renameFile p temporary p n (putFile p temporary bytes s)) q k =
      if q = p ∧ k = n then some bytes else fileAt s q k := by
  have hput (q : Place) (k : FileName) := fileAt_putFile s p q temporary k bytes hp
  have hfile : fileAt (putFile p temporary bytes s) p temporary = some bytes := by
    rw [hput, if_pos ⟨rfl, rfl⟩]
  have hdir : ((putFile p temporary bytes s).dirs p).isSome := by
    simp [putFile, setDir, hp]
  rw [fileAt_renameFile _ hfile hdir]
  by_cases hn : q = p ∧ k = n
  · rw [if_pos hn, if_pos hn]
  · rw [if_neg hn, if_neg hn]
    by_cases ht : q = p ∧ k = temporary
    · obtain ⟨rfl, rfl⟩ := ht
      rw [if_pos ⟨rfl, rfl⟩, hfree]
    · rw [if_neg ht, hput, if_neg ht]

theorem mem_listing {m : Dir} {order : List FileName} {n : FileName} {bytes : Bytes}
    (h : m[n]? = some bytes) : n ∈ listing order m := by
  have hkey : n ∈ m.keys := by
    rw [Std.ExtTreeMap.mem_keys, ← Std.ExtTreeMap.isSome_getElem?_iff_mem, h]
    rfl
  rw [listing]
  split
  · rename_i hperm
    exact hperm.mem_iff.mpr hkey
  · exact hkey

end SweepFiles
