import Scorer.DescriptorFileProofs

/-! # Where the descriptors of a migration are

    A descriptor is safe while a file of one of the three directories holds it or
    the sweeper has accepted it.

    * `Contains` says what a file of whole descriptors holds, and the lemmas about
      it what a concatenation of files, or the front of one, does;
    * `Safe` is what an attempt should keep, and `Start` what it meets at first. -/

namespace SweepMigration

open CrashProgram SweepFiles DescriptorFile SelfDelimited

variable {δ : Type} {codec : DescriptorCodec δ} {c : MigrationCalls} {s t s₀ : Disk δ}
  {d : δ} {p q : Place} {n k : FileName} {bytes : Bytes}

/-! ## Files of descriptors -/

/-- The encodings of the descriptors, one after another. -/
def encodeAll (codec : DescriptorCodec δ) (ds : List δ) : Bytes := ds.flatMap codec.encode

/-- A sequence of well-formed descriptors. -/
def WellFormed (codec : DescriptorCodec δ) (bytes : Bytes) : Prop :=
  ∃ ds, bytes = encodeAll codec ds

/-- The bytes are a sequence of descriptors, `d` among them. -/
def Contains (codec : DescriptorCodec δ) (bytes : Bytes) (d : δ) : Prop :=
  ∃ ds, bytes = encodeAll codec ds ∧ d ∈ ds

theorem encode_ne_nil (codec : DescriptorCodec δ) (d : δ) : codec.encode d ≠ [] := by
  intro hnil
  have hread := codec.read_encode d []
  rw [hnil, List.nil_append] at hread
  obtain ⟨used, hne, hused⟩ := codec.read_suffix _ _ _ hread
  rw [List.append_nil] at hused
  exact hne hused.symm

theorem encodeAll_append (ds es : List δ) :
    encodeAll codec (ds ++ es) = encodeAll codec ds ++ encodeAll codec es :=
  List.flatMap_append

theorem contains_ne_nil (h : Contains codec bytes d) : bytes ≠ [] := by
  obtain ⟨ds, rfl, hd⟩ := h
  intro hnil
  exact encode_ne_nil codec d (List.flatMap_eq_nil_iff.mp hnil d hd)

theorem wellFormed_nil : WellFormed codec [] := ⟨[], rfl⟩

theorem wellFormed_append {bytes' : Bytes} (h : WellFormed codec bytes)
    (h' : WellFormed codec bytes') : WellFormed codec (bytes ++ bytes') := by
  obtain ⟨ds, rfl⟩ := h
  obtain ⟨es, rfl⟩ := h'
  exact ⟨ds ++ es, (encodeAll_append ds es).symm⟩

theorem wellFormed_flatMap {L : List FileName} {f : FileName → Bytes}
    (h : ∀ n ∈ L, WellFormed codec (f n)) : WellFormed codec (L.flatMap f) := by
  induction L with
  | nil => exact wellFormed_nil
  | cons x rest ih =>
      rw [List.flatMap_cons]
      exact wellFormed_append (h x List.mem_cons_self)
        (ih fun n hn => h n (List.mem_cons_of_mem _ hn))

/-- Encoded descriptors are read as a whole. -/
theorem whole_encodeAll (codec : DescriptorCodec δ) (ds : List δ) :
    Whole codec.read (encodeAll codec ds) ds := whole_encodings codec ds

/-- The bytes say which descriptors they are. -/
theorem encodeAll_injective {ds es : List δ} (h : encodeAll codec ds = encodeAll codec es) :
    ds = es := by
  have hds := scan_of_whole codec.read_suffix (whole_encodeAll codec ds)
  rw [h] at hds
  exact hds.symm.trans (scan_of_whole codec.read_suffix (whole_encodeAll codec es))

/-- Encoded descriptors contain themselves, and nothing else. -/
theorem contains_encodeAll {ds : List δ} : Contains codec (encodeAll codec ds) d ↔ d ∈ ds := by
  constructor
  · rintro ⟨es, hes, hd⟩
    rwa [encodeAll_injective hes]
  · exact fun hd => ⟨ds, rfl, hd⟩

/-- A concatenation of files holds what each of them holds, and nothing else. -/
theorem contains_flatMap {L : List FileName} {f : FileName → Bytes}
    (h : ∀ n ∈ L, WellFormed codec (f n)) :
    Contains codec (L.flatMap f) d ↔ ∃ n ∈ L, Contains codec (f n) d := by
  induction L with
  | nil =>
      constructor
      · exact fun hd => absurd rfl (contains_ne_nil hd)
      · rintro ⟨n, hn, -⟩
        cases hn
  | cons x rest ih =>
      have hrest : ∀ m ∈ rest, WellFormed codec (f m) :=
        fun m hm => h m (List.mem_cons_of_mem _ hm)
      obtain ⟨ds, hds⟩ := h x List.mem_cons_self
      obtain ⟨es, hes⟩ := wellFormed_flatMap hrest
      rw [hes, contains_encodeAll] at ih
      rw [List.flatMap_cons, hes, hds, ← encodeAll_append, contains_encodeAll,
        List.mem_append, ih hrest, List.exists_mem_cons_iff, hds, contains_encodeAll]

theorem steps_encodeAll (ds : List δ) (more : Bytes) :
    Steps codec.read (encodeAll codec ds ++ more) ds more := by
  induction ds with
  | nil => exact .stop more
  | cons d ds ih =>
      refine .next ?_ ih
      rw [← codec.read_encode d (encodeAll codec ds ++ more), encodeAll, List.flatMap_cons,
        List.append_assoc]
      rfl

/-- The front of a file holds nothing that the file does not. -/
theorem contains_of_front {front : Bytes} (hfront : front <+: bytes)
    (hbytes : WellFormed codec bytes) (hd : Contains codec front d) :
    Contains codec bytes d := by
  obtain ⟨more, rfl⟩ := hfront
  obtain ⟨ds, hds⟩ := hbytes
  obtain ⟨es, rfl, hmem⟩ := hd
  have hwhole : Steps codec.read (encodeAll codec es ++ more) ds [] :=
    hds ▸ whole_encodeAll codec ds
  -- what the front encodes are the first descriptors of the file
  have hprefix : es <+: ds := steps_front (steps_encodeAll es more) hwhole
    (Consuming.nil codec.read_suffix)
  exact ⟨ds, hds, hprefix.subset hmem⟩

/-! ## Safe descriptors -/

/-- A file of the directory holds the descriptor. -/
def InDir (codec : DescriptorCodec δ) (s : Disk δ) (p : Place) (d : δ) : Prop :=
  ∃ n bytes, fileAt s p n = some bytes ∧ Contains codec bytes d

/-- A file of one of the directories holds it, or the sweeper has accepted it. -/
def Safe (codec : DescriptorCodec δ) (s : Disk δ) (d : δ) : Prop :=
  d ∈ s.tracked ∨ ∃ p, InDir codec s p d

/-- Every file is a sequence of descriptors. -/
def AllWellFormed (codec : DescriptorCodec δ) (s : Disk δ) : Prop :=
  ∀ p n bytes, fileAt s p n = some bytes → WellFormed codec bytes

/-- No file name is used in both of these directories. -/
def Apart (s : Disk δ) : Prop :=
  ∀ n, fileAt s .pending n = none ∨ fileAt s .processing n = none

/-- The random name of the new file, and its temporary one, are not in use. -/
def FreshKey (c : MigrationCalls) (s : Disk δ) : Prop :=
  fileAt s .spendable c.key = none ∧ fileAt s .spendable (temporaryName c.key) = none

/-- What the attempt meets at first: files of descriptors, no name in both the
    pending and the processing directory, and a random name that is new. -/
structure Start (codec : DescriptorCodec δ) (c : MigrationCalls) (s : Disk δ) : Prop where
  wellFormed : AllWellFormed codec s
  apart : Apart s
  fresh : FreshKey c s

/-! ## Removing a directory -/

/-- What no removal of a file of the directory disturbs, removing the directory
    does not. -/
theorem removeDir_keeps {P : Disk δ → Prop} (hfile : ∀ n s, P s → P (unlink p n s))
    (hdir : ∀ s, P s → P (rmdir p s)) (pass : Pass) :
    Holds P (removeDir c pass p) (fun _ => P) P := by
  refine holds_bind (holds_look (Q := fun _ s => P s) fun s hs => hs) fun dir => ?_
  cases dir with
  | none => exact holds_pure fun s hs => hs
  | some m =>
      refine holds_bind (holds_forEach (I := fun _ s => P s) (E := fun _ s => P s) ?_ _)
        fun r => ?_
      · intro n rest
        refine holds_ite (fun _ => holds_pure fun s hs => hs) fun _ => ?_
        exact holds_bind (holds_act (Q := fun _ s => P s)
          fun s hs => ⟨hfile n s hs, hfile n s hs⟩) fun _ => holds_pure fun s hs => hs
      · cases r with
        | error e => exact holds_pure fun s hs => hs
        | ok u =>
            exact holds_ite (fun _ => holds_pure fun s hs => hs)
              fun _ => holds_act fun s hs => ⟨hdir s hs, hdir s hs⟩

/-! ## Attempts to look at -/

/-- Descriptors of one byte. -/
def byteCodec : DescriptorCodec UInt8 where
  encode d := [d]
  read bytes := match bytes with
    | [] => none
    | d :: rest => some (d, rest)
  read_encode := fun _ _ => rfl
  read_suffix := by
    intro bytes d rest h
    cases bytes with
    | nil => exact nomatch h
    | cons b tail =>
        obtain ⟨rfl, rfl⟩ := Prod.mk.inj (Option.some.inj h)
        exact ⟨[b], List.cons_ne_nil _ _, rfl⟩

/-- An attempt without failures. -/
def allSucceed : MigrationCalls where
  statFails := fun _ => false
  order := fun _ => []
  readDirFails := fun _ => false
  entryFails := fun _ _ => false
  createDirFails := fun _ => false
  renameFails := fun _ => false
  readFails := fun _ => false
  key := List.replicate 64 0x61
  persistFails := none
  openFails := fun _ => false
  metadataFails := fun _ => false
  positionFails := fun _ _ => false
  decodeFails := fun _ _ => false
  trackFails := false
  unlinkFails := fun _ _ => false
  rmdirFails := fun _ => false
  sentinelFails := none

/-- One pending file, with the descriptors 7 and 8. -/
def onePending (name : FileName) : Disk UInt8 :=
  putFile .pending name [7, 8]
    ⟨false, fun p => if p = .pending then some ∅ else none, []⟩

theorem fileAt_onePending (name k : FileName) (p : Place) :
    fileAt (onePending name) p k = if p = .pending ∧ k = name then some [7, 8] else none := by
  rw [onePending, fileAt_putFile _ _ _ _ _ _ rfl]
  cases p <;> simp [fileAt]

/-- A disk from which a migration may start. -/
theorem onePending_start (name : FileName) : Start byteCodec allSucceed (onePending name) where
  wellFormed := by
    intro p n bytes h
    rw [fileAt_onePending] at h
    split at h
    · obtain rfl := Option.some.inj h
      exact ⟨[7, 8], rfl⟩
    · exact nomatch h
  apart := fun n => Or.inr (by rw [fileAt_onePending, if_neg (fun h => nomatch h.1)])
  fresh := ⟨by rw [fileAt_onePending, if_neg (fun h => nomatch h.1)],
    by rw [fileAt_onePending, if_neg (fun h => nomatch h.1)]⟩

theorem onePending_safe (name : FileName) : Safe byteCodec (onePending name) 8 :=
  Or.inr ⟨.pending, name, [7, 8], by rw [fileAt_onePending, if_pos ⟨rfl, rfl⟩],
    [7, 8], rfl, by simp⟩

end SweepMigration
