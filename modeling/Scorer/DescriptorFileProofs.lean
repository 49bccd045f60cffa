import Scorer.SweepFilesProofs
import Scorer.SelfDelimitedProofs

/-! # Reading one descriptor file

    `read_outputs_from_file` loops until a call fails, the offset reaches the length
    taken once at the start, or a descriptor does not decode.  Nothing in the code
    bounds the number of turns.

    * `readTurn` is one turn and `ReadsTo` a call that has come to its end, so that
      a result stands for a loop that stops;
    * `descriptorAt` is what a turn can take from the front of the bytes ahead, with
      the calls that fail on the way;
    * `readLoop_scan`: the loop with fuel is a scan with `descriptorAt`, and
      `readsTo_iff` says that the fuel is no restriction. -/

namespace DescriptorFile

open SweepFiles SelfDelimited

variable {δ : Type} {c : MigrationCalls} {codec : DescriptorCodec δ} {n : FileName}
  {bytes : Bytes} {outputs : List δ}

/-! ## The loop -/

/-- The offset of the stream, the bytes ahead of it and the vector. -/
structure ReadState (δ : Type) where
  pos     : Nat
  rest    : Bytes
  outputs : List δ

variable (c codec n) in
/-- One turn of the loop, up to the length `len`; `none` where the function returns. -/
def readTurn (len : Nat) (s : ReadState δ) : Option (ReadState δ) :=
  if c.positionFails n s.pos then none
  else if s.pos ≥ len then none
  else if c.decodeFails n s.pos then none
  else match codec.read s.rest with
    | none => none
    | some (descriptor, rest') =>
        some ⟨s.pos + (s.rest.length - rest'.length), rest', s.outputs ++ [descriptor]⟩

variable (c codec n) in
/-- The loop, started in a state, returns with this vector. -/
inductive Returns (len : Nat) : ReadState δ → List δ → Prop where
  | done {s : ReadState δ} (hturn : readTurn c codec n len s = none) : Returns len s s.outputs
  | turn {s t : ReadState δ} {result : List δ} (hturn : readTurn c codec n len s = some t)
      (hrest : Returns len t result) : Returns len s result

variable (c codec n) in
/-- `read_outputs_from_file` on a file with these bytes returns and leaves `result`. -/
def ReadsTo (bytes : Bytes) (outputs result : List δ) : Prop :=
  if c.openFails n then result = outputs
  else Returns c codec n (if c.metadataFails n then 0 else bytes.length)
    ⟨0, bytes, outputs⟩ result

/-- A turn is a function of the state, so the loop has one result. -/
theorem returns_unique {len : Nat} {s : ReadState δ} {result result' : List δ}
    (h : Returns c codec n len s result) (h' : Returns c codec n len s result') :
    result = result' := by
  induction h with
  | done hturn =>
      cases h' with
      | done => rfl
      | turn hturn' => cases hturn.symm.trans hturn'
  | turn hturn _ ih =>
      cases h' with
      | done hturn' => cases hturn.symm.trans hturn'
      | turn hturn' hrest' =>
          obtain rfl := Option.some.inj (hturn.symm.trans hturn')
          exact ih hrest'

/-- The loop with fuel takes the same turns. -/
theorem readLoop_succ (len fuel : Nat) (s : ReadState δ) :
    readLoop c codec n len (fuel + 1) s.pos s.rest s.outputs =
      match readTurn c codec n len s with
      | none => s.outputs
      | some t => readLoop c codec n len fuel t.pos t.rest t.outputs := by
  rw [readLoop, readTurn]
  split
  · rfl
  split
  · rfl
  split
  · rfl
  cases codec.read s.rest with
  | none => rfl
  | some out => rfl

/-- Each turn uses up bytes, which is why the loop ends. -/
theorem readTurn_length {len : Nat} {s t : ReadState δ}
    (h : readTurn c codec n len s = some t) : t.rest.length < s.rest.length := by
  rw [readTurn] at h
  split at h
  · cases h
  split at h
  · cases h
  split at h
  · cases h
  cases hread : codec.read s.rest with
  | none =>
      rw [hread] at h
      cases h
  | some out =>
      rw [hread] at h
      obtain rfl := Option.some.inj h
      obtain ⟨used, hne, hrest⟩ := codec.read_suffix _ out.1 out.2 hread
      have hpos := List.length_pos_iff.mpr hne
      rw [hrest, List.length_append]
      show out.2.length < used.length + out.2.length
      omega

/-- Every turn takes a byte, so the loop comes to its end within the fuel. -/
theorem returns_readLoop (len : Nat) {fuel : Nat} : ∀ {s : ReadState δ},
    s.rest.length < fuel →
      Returns c codec n len s (readLoop c codec n len fuel s.pos s.rest s.outputs) := by
  induction fuel with
  | zero => exact fun h => absurd h (Nat.not_lt_zero _)
  | succ fuel ih =>
      intro s hfuel
      rw [readLoop_succ]
      cases hturn : readTurn c codec n len s with
      | none => exact .done hturn
      | some t =>
          have hshort := readTurn_length hturn
          exact .turn hturn (ih (by omega))

/-- **TERMINATION**: a call comes to its end, with one result. -/
theorem readsTo_iff {result : List δ} : ReadsTo c codec n bytes outputs result ↔
    result = readOutputsFromFile c codec n bytes outputs := by
  rw [ReadsTo, readOutputsFromFile]
  split
  · rfl
  · let start : ReadState δ := ⟨0, bytes, outputs⟩
    have hreturns (len : Nat) : Returns c codec n len start
        (readLoop c codec n len (bytes.length + 1) 0 bytes outputs) :=
      returns_readLoop len (s := start) (Nat.lt_succ_self bytes.length)
    constructor
    · exact fun h => returns_unique h (hreturns _)
    · rintro rfl
      exact hreturns _

/-! ## What it appends -/

variable (c codec n) in
/-- The descriptor at the front of `rest`, the end of a file of `total` bytes, as a
    turn gets it: none if a call on the way fails. -/
def descriptorAt (total : Nat) (rest : Bytes) : Option (δ × Bytes) :=
  if c.openFails n || c.metadataFails n || c.positionFails n (total - rest.length)
    || c.decodeFails n (total - rest.length) then none
  else codec.read rest

/-- No call on the file fails. -/
structure Undisturbed (c : MigrationCalls) (n : FileName) : Prop where
  openFile : c.openFails n = false
  metadata : c.metadataFails n = false
  position : ∀ pos, c.positionFails n pos = false
  decode : ∀ pos, c.decodeFails n pos = false

/-- Where no call fails a turn is one step of the decoder. -/
theorem descriptorAt_undisturbed (h : Undisturbed c n) (total : Nat) :
    descriptorAt c codec n total = codec.read := by
  ext1 rest
  rw [descriptorAt, h.openFile, h.metadata, h.position, h.decode]
  rfl

/-- A turn reads something or nothing at all. -/
theorem descriptorAt_consuming (total : Nat) : Consuming (descriptorAt c codec n total) := by
  intro rest d rest' h
  rw [descriptorAt] at h
  split at h
  · cases h
  · exact codec.read_suffix _ _ _ h

/-- A turn takes what `descriptorAt` finds. -/
theorem readTurn_eq {total : Nat} {s : ReadState δ} (hopen : c.openFails n = false)
    (htotal : total = s.pos + s.rest.length) :
    readTurn c codec n (if c.metadataFails n then 0 else total) s =
      match descriptorAt c codec n total s.rest with
      | none => none
      | some (d, rest') =>
          some ⟨s.pos + (s.rest.length - rest'.length), rest', s.outputs ++ [d]⟩ := by
  have hpos : total - s.rest.length = s.pos := by omega
  rw [readTurn, descriptorAt, hopen, hpos]
  cases c.metadataFails n with
  -- a length that is not known counts as zero, and ends the loop at once
  | true =>
      rw [if_pos rfl, if_pos (Nat.zero_le s.pos), ite_self]
      rfl
  | false =>
      cases c.positionFails n s.pos with
      | true => rfl
      | false =>
          cases c.decodeFails n s.pos with
          | true =>
              simp
          | false =>
              by_cases hend : s.pos ≥ total
              · -- at the end there is nothing to decode either
                obtain hnil : s.rest = [] := List.eq_nil_of_length_eq_zero (by omega)
                have hnone : codec.read [] = none := Consuming.nil codec.read_suffix
                simp [hend, hnil, hnone]
              · simp [hend]

/-- The loop with fuel is a scan. -/
theorem readLoop_scan {total fuel : Nat} (hopen : c.openFails n = false) :
    ∀ {s : ReadState δ}, total = s.pos + s.rest.length →
      readLoop c codec n (if c.metadataFails n then 0 else total) fuel s.pos s.rest s.outputs
        = s.outputs ++ scanFuel (descriptorAt c codec n total) fuel s.rest := by
  induction fuel with
  | zero => exact fun _ => (List.append_nil _).symm
  | succ fuel ih =>
      intro s htotal
      rw [readLoop_succ, readTurn_eq hopen htotal, scanFuel]
      cases hread : descriptorAt c codec n total s.rest with
      | none => exact (List.append_nil _).symm
      | some out =>
          obtain ⟨d, rest'⟩ := out
          obtain ⟨used, -, hrest⟩ := descriptorAt_consuming total _ d rest' hread
          have hlength := congrArg List.length hrest
          rw [List.length_append] at hlength
          -- the position moves by what the descriptor took
          have hnext := ih (s := ⟨s.pos + (s.rest.length - rest'.length), rest',
            s.outputs ++ [d]⟩) (show total = s.pos + (s.rest.length - rest'.length)
              + rest'.length by omega)
          exact hnext.trans (List.append_assoc _ [d] _)

/-- The loop is a scan of the bytes, behind what was read before. -/
theorem readOutputsFromFile_scan (bytes : Bytes) (outputs : List δ) :
    readOutputsFromFile c codec n bytes outputs
      = outputs ++ scan (descriptorAt c codec n bytes.length) bytes := by
  rw [readOutputsFromFile]
  split
  · rename_i hopen
    have hnone : descriptorAt c codec n bytes.length bytes = none := by
      rw [descriptorAt, hopen]
      rfl
    rw [scan, scanFuel, hnone, List.append_nil]
  · rename_i hopen
    exact readLoop_scan (s := ⟨0, bytes, outputs⟩) (Bool.not_eq_true _ ▸ hopen)
      (Nat.zero_add _).symm

/-- Encodings one after another are read to their end. -/
theorem whole_encodings (codec : DescriptorCodec δ) (ds : List δ) :
    Whole codec.read (ds.flatMap codec.encode) ds := by
  induction ds with
  | nil => exact .stop []
  | cons d ds ih => exact .next (codec.read_encode d _) ih

/-- **ENDS AND RECOVERS**: on every file a call comes to an end and appends the longest
    sequence of descriptors that can be taken one after another from its start.  When
    no call on the file fails that is the longest that decodes, and all of a file
    of descriptors. -/
theorem reads_longest_sequence (c : MigrationCalls) (codec : DescriptorCodec δ)
    (n : FileName) (bytes : Bytes) (outputs : List δ) :
    (∃ result, ReadsTo c codec n bytes outputs result) ∧
    ∀ result, ReadsTo c codec n bytes outputs result →
      ∃ ds, result = outputs ++ ds ∧
        Longest (descriptorAt c codec n bytes.length) bytes ds ∧
        (Undisturbed c n → Longest codec.read bytes ds ∧
          ∀ es, bytes = es.flatMap codec.encode → ds = es) := by
  refine ⟨⟨_, readsTo_iff.mpr rfl⟩, fun result hresult => ?_⟩
  rw [readsTo_iff, readOutputsFromFile_scan] at hresult
  refine ⟨_, hresult, longest_scan (descriptorAt_consuming _) bytes, fun h => ?_⟩
  rw [descriptorAt_undisturbed h]
  refine ⟨longest_scan codec.read_suffix bytes, ?_⟩
  rintro es rfl
  exact scan_of_whole codec.read_suffix (whole_encodings codec es)

end DescriptorFile
