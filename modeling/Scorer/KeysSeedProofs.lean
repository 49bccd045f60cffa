import Scorer.CrashProgramProofs
import Scorer.PaymentStoreProofs

/-! # The node identity over start-ups

    The node's keys come from 32 bytes in `keys_seed`.  `start_ldk` reads them, and
    when the read fails it draws new ones and creates the file.  A read can fail
    for other reasons than absence, and creating a file that exists empties it:
    so the seed survives a start-up exactly when the start-up does not take that
    way to a seed that is there (`startKeys_keeps_iff`), and it survives any
    sequence of such start-ups, each cut at any point (`seed_never_changes`). -/

namespace KeysSeed

open LabelledRun CrashProgram PaymentStore

/-- The content of `keys_seed`, if the file exists. -/
abbrev SeedFile := Option (List UInt8)

/-- What the calls of one start-up come to: a read that fails although the file is
    there, the random bytes, a failing create, a write that fails after some bytes,
    a sync that fails and the bytes that are left then. -/
structure SeedCalls where
  readFails   : Bool
  randomBytes : Bytes32
  createFails : Bool
  writeFails  : Option Nat
  syncFails   : Option Nat
  deriving DecidableEq, Repr

/-- Why a start-up stops at the seed. -/
inductive SeedError where
  | invalidLength (found : Nat)
  | createFailed
  | writeFailed
  | syncFailed
  deriving DecidableEq, Repr

/-- The states of a file while `bytes` is written to it, up to `n` bytes. -/
def written (bytes : List UInt8) (n : Nat) : List SeedFile :=
  (List.range (n + 1)).map fun i => some (bytes.take i)

/-- `File::create`, `write_all` and `sync_all` of a fresh seed. -/
def createKeys (k : SeedCalls) : Prog SeedFile (Except SeedError Bytes32) :=
  if k.createFails then pure (.error .createFailed)
  else do
    -- an existing file is emptied
    act fun _ => some []
    match k.writeFails with
    | some n => do
        passing fun _ => written k.randomBytes.toList n
        pure (.error .writeFailed)
    | none => do
        passing fun _ => written k.randomBytes.toList 32
        match k.syncFails with
        | some n => do
            act fun _ => some (k.randomBytes.toList.take n)
            pure (.error .syncFailed)
        | none => pure (.ok k.randomBytes)

/-- The 32 bytes of a seed file as a key. -/
def keyOf (seed : List UInt8) : Option Bytes32 :=
  if h : seed.length = 32 then some ⟨seed.toArray, h⟩ else none

/-- The seed initialisation of `start_ldk`; `.ok` is the seed it proceeds with. -/
def startKeys (k : SeedCalls) : Prog SeedFile (Except SeedError Bytes32) := do
  match ← look fun file => if k.readFails then none else file with
  | some seed =>
      match keyOf seed with
      | some key => pure (.ok key)
      | none => pure (.error (.invalidLength seed.length))
  | none => createKeys k

/-- The file holds the seed. -/
def HoldsSeed (seed : Bytes32) (file : SeedFile) : Prop := file = some seed.toList

/-- The start-up does not create the file over a seed that it failed to read. -/
def SparesSeed (file : SeedFile) (k : SeedCalls) : Prop :=
  ∀ bytes ∈ file, bytes.length = 32 → k.readFails = true → k.createFails = true

instance sparesSeedDecidable (file : SeedFile) (k : SeedCalls) :
    Decidable (SparesSeed file k) :=
  inferInstanceAs (Decidable (∀ bytes ∈ file, _))

/-- The 32 bytes of a seed are read as that seed. -/
theorem keyOf_toList (seed : Bytes32) : keyOf seed.toList = some seed := by
  rw [keyOf, dif_pos Vector.length_toList]
  congr 1

theorem toList_of_keyOf {bytes : List UInt8} {seed : Bytes32} (h : keyOf bytes = some seed) :
    bytes = seed.toList := by
  rw [keyOf] at h
  split at h
  · obtain rfl := Option.some.inj h
    rfl
  · exact nomatch h

/-! ## One start-up -/

variable {seed : Bytes32} {file : SeedFile} {k : SeedCalls}

/-- A seed that is read is used, and the file is left alone. -/
theorem startKeys_read (hread : k.readFails = false) :
    startKeys k (some seed.toList) = ⟨.ok seed, some seed.toList, []⟩ := by
  simp [startKeys, hread, keyOf_toList]

/-- Creating the file over one that is there leaves it empty at first. -/
theorem createKeys_empties (hcreate : k.createFails = false) :
    some [] ∈ (createKeys k file).visited := by
  simp [createKeys, hcreate]

/-- A file that cannot be created is left as it is. -/
theorem createKeys_fails (hcreate : k.createFails = true) :
    createKeys k file = ⟨.error .createFailed, file, []⟩ := by
  simp [createKeys, hcreate]

/-- A seed that cannot be read is made anew. -/
theorem startKeys_create (hread : k.readFails = true) :
    startKeys k file = createKeys k file := by
  simp [startKeys, hread]

private theorem written_last (bytes : List UInt8) (n : Nat) (file : SeedFile) :
    (written bytes n).getLast?.getD file = some (bytes.take n) := by
  simp [written, List.range_succ]

/-- A seed that was created is in the file. -/
theorem createKeys_holds (h : (createKeys k file).value = .ok seed) :
    HoldsSeed seed (createKeys k file).final := by
  rw [createKeys] at h ⊢
  split at h
  · exact nomatch h
  · rename_i hcreate
    rw [if_neg hcreate]
    cases hw : k.writeFails with
    | some n => simp [hw] at h
    | none =>
        cases hsync : k.syncFails with
        | some n => simp [hw, hsync] at h
        | none =>
            have hseed : k.randomBytes = seed := by simpa [hw, hsync] using h
            simp [written_last, HoldsSeed, hseed]

/-- **THE SEED IN USE IS ON DISK**: a start-up that proceeds leaves its seed in the
    file. -/
theorem startKeys_holds (h : (startKeys k file).value = .ok seed) :
    HoldsSeed seed (startKeys k file).final := by
  cases hread : k.readFails with
  | true =>
      rw [startKeys_create hread] at h ⊢
      exact createKeys_holds h
  | false =>
      cases file with
      | none =>
          have hcreate : startKeys k none = createKeys k none := by simp [startKeys, hread]
          rw [hcreate] at h ⊢
          exact createKeys_holds h
      | some bytes =>
          cases hkey : keyOf bytes with
          | none => simp [startKeys, hread, hkey] at h
          | some key =>
              have hseed : key = seed := by simpa [startKeys, hread, hkey] using h
              rw [toList_of_keyOf hkey, startKeys_read hread, hseed]
              rfl

/-- A start-up that keeps the seed: the file holds it at every point, and no other
    seed is used. -/
def Keeps (seed : Bytes32) (k : SeedCalls) : Prop :=
  Holds (HoldsSeed seed) (startKeys k)
    (fun r file => HoldsSeed seed file ∧ ∀ seed', r = .ok seed' → seed' = seed)
    (HoldsSeed seed)

/-- **ONE START-UP**: it keeps the seed exactly when it does not create the file
    over a seed that it failed to read. -/
theorem startKeys_keeps_iff : Keeps seed k ↔ SparesSeed (some seed.toList) k := by
  constructor
  · intro hkeeps bytes _ _ hread
    cases hcreate : k.createFails with
    | true => rfl
    | false =>
        -- the emptied file is not the seed
        have hempty : some [] ∈ (startKeys k (some seed.toList)).visited := by
          rw [startKeys_create hread]
          exact createKeys_empties hcreate
        have hholds := (hkeeps _ rfl).2 _ hempty
        have hlen := congrArg (fun f : SeedFile => f.map List.length) hholds
        simp at hlen
  · rintro hspare _ rfl
    cases hread : k.readFails with
    | false =>
        rw [startKeys_read hread]
        exact ⟨⟨rfl, fun seed' h => (Except.ok.inj h).symm⟩, fun _ ht => nomatch ht⟩
    | true =>
        have hcreate := hspare _ rfl Vector.length_toList hread
        rw [startKeys_create hread, createKeys_fails hcreate]
        exact ⟨⟨rfl, fun seed' h => nomatch h⟩, fun _ ht => nomatch ht⟩

/-! ## Any number of start-ups -/

/-- The start-ups that spare a seed, whole or cut. -/
def Sparing (file : SeedFile) (a : SeedCalls × Option Nat) : Prop := SparesSeed file a.1

instance sparingDecidable (file : SeedFile) (a : SeedCalls × Option Nat) :
    Decidable (Sparing file a) :=
  inferInstanceAs (Decidable (SparesSeed file a.1))

/-- **ONE IDENTITY**: once a start-up has proceeded with a seed, the file holds it
    after any sequence of start-ups, whole or cut at any point, that create no file
    over a seed they failed to read; and one more such start-up uses no other. -/
theorem seed_never_changes (file₀ file : SeedFile) (k₀ : SeedCalls) (seed : Bytes32)
    (h₀ : (startKeys k₀ file₀).value = .ok seed)
    (hrun : Reach (attempt startKeys) Sparing (startKeys k₀ file₀).final file) :
    HoldsSeed seed file ∧ ∀ k seed', SparesSeed file k →
      (startKeys k file).value = .ok seed' → seed' = seed := by
  have hholds : HoldsSeed seed file := by
    refine reach_invariant ?_ hrun (startKeys_holds h₀)
    rintro _ ⟨k, cut⟩ t rfl hspare hstep
    have hkeeps : Keeps seed k := startKeys_keeps_iff.mpr hspare
    exact attempt_holds (holds_weaken hkeeps (fun _ h => h) (fun _ _ h => h.1) (fun _ h => h))
      rfl hstep
  refine ⟨hholds, fun k seed' hspare hval => ?_⟩
  have hkeeps : Keeps seed k := startKeys_keeps_iff.mpr (hholds ▸ hspare)
  exact (hkeeps file hholds).1.2 seed' hval

/-- Calls that all succeed, with `n` for the random bytes. -/
def allSucceed (n : UInt8) : SeedCalls := ⟨false, Vector.replicate 32 n, false, none, none⟩

/-- A first start, one that reads, and one that can neither read nor create the file. -/
theorem seed_never_changes_threeStarts :
    ∃ file : SeedFile,
      Reach (attempt startKeys) Sparing (startKeys (allSucceed 1) none).final file ∧
      HoldsSeed (Vector.replicate 32 1) file ∧ ∀ k seed', SparesSeed file k →
        (startKeys k file).value = .ok seed' → seed' = Vector.replicate 32 1 := by
  obtain ⟨file, hrun, -⟩ := reach_of_check (startKeys (allSucceed 1) none).final
    (attempt startKeys) Sparing
    [(allSucceed 2, none),
      ({ allSucceed 3 with readFails := true, createFails := true }, none)]
    (fun _ => true) (by decide +kernel)
  exact ⟨file, hrun, seed_never_changes none file (allSucceed 1) _ (by decide +kernel) hrun⟩

/-- **THE IDENTITY IS LOST**: the second start-up fails to read the seed, creates
    the file anew and proceeds with other keys. -/
theorem unread_seed_replaced :
    ¬ ∀ (file₀ file : SeedFile) (k₀ : SeedCalls) (seed : Bytes32),
      (startKeys k₀ file₀).value = .ok seed →
      Reach (attempt startKeys) anyStep (startKeys k₀ file₀).final file →
      HoldsSeed seed file := by
  intro hall
  obtain ⟨file, hrun, hother⟩ := reach_of_check (startKeys (allSucceed 1) none).final
    (attempt startKeys) anyStep
    [({ allSucceed 2 with readFails := true }, none)]
    (fun file : SeedFile => decide (file = some (List.replicate 32 2)))
    (by decide +kernel)
  have hheld := hall none file (allSucceed 1) (Vector.replicate 32 1) (by decide +kernel) hrun
  have heq := (of_decide_eq_true hother).symm.trans hheld
  exact absurd heq (by decide)

end KeysSeed
