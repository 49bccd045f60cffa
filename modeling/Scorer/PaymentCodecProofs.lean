import Scorer.PaymentStoreProofs
import Scorer.TlvStreamProofs

/-! # The encoding of the payment files

    `state.rs` gives each type its fields, their numbers and the `required` marker,
    and the amounts a codec of their own.  The two stores are records with one
    field, the map.

    * `writeInbound`, `readInbound`, `writeOutbound`, `readOutbound`: the codecs;
    * `readInfo_sound`, `readStorage_sound`: the readers never panic, as every field
      that the constructors unwrap has been seen;
    * `payment_files_decode`: a file decodes to the map it was written from, and no
      proper prefix of it decodes. -/

namespace PaymentCodec

open ByteReader LengthPrefix TlvStream PaymentStore

/-! ## The fields of a record -/

/-- A hash, an id, a preimage or a secret: its bytes. -/
def writeBytes32 (b : Bytes32) : List UInt8 := b.toList

/-- An array of 32 bytes is read exactly. -/
def readBytes32 : Reader Bytes32 := do
  let bytes ← readExact 32
  pure (Vector.ofFn fun i : Fin 32 => bytes.getD i 0)

/-- A `u64` is eight bytes, the highest first. -/
def writeU64 (n : UInt64) : List UInt8 := toBytes 8 n.toNat

/-- A `u64` from its eight bytes. -/
def readU64 : Reader UInt64 := do
  let n ← readUInt 8
  pure (UInt64.ofNat n)

/-- The numbers of `impl_writeable_tlv_based_enum!(HTLCStatus, ..)`. -/
def statusId : HTLCStatus → Nat
  | .pending => 0
  | .succeeded => 1
  | .failed => 2

/-- The `match` on the byte of a status; other bytes are an error. -/
def statusOfId : Nat → Option HTLCStatus
  | 0 => some .pending
  | 1 => some .succeeded
  | 2 => some .failed
  | _ => none

/-- A variant without fields: its number and an empty record. -/
def writeStatus (status : HTLCStatus) : List UInt8 :=
  toBytes 1 (statusId status) ++ writeTlvFields []

/-- A status: its byte and the empty fields of a unit variant. -/
def readStatus : Reader HTLCStatus := do
  let id ← readUInt 1
  match statusOfId id with
  | some status => do
      let _ ← readTlvFields ([] : List (TlvField Unit)) ()
      pure status
  | none => fail .unknownRequiredFeature

/-- The hand-written codec of `MillisatAmount`. -/
def writeAmount (amount : MillisatAmount) : List UInt8 := writeOption writeU64 amount.msat

/-- `MillisatAmount::read`. -/
def readAmount : Reader MillisatAmount := do
  let amt ← readOption readU64
  pure ⟨amt⟩

/-! ## Records and stores -/

/-- The fields of a `PaymentInfo` that have been read so far. -/
structure PaymentInfoFields where
  preimage : Option (Option PaymentPreimage) := none
  secret   : Option (Option PaymentSecret) := none
  status   : Option HTLCStatus := none
  amtMsat  : Option MillisatAmount := none

/-- `impl_writeable_tlv_based!(PaymentInfo, ..)`. -/
def paymentInfoFields : List (TlvField PaymentInfoFields) :=
  [required 0 (readOption readBytes32) fun f v => { f with preimage := some v },
    required 2 (readOption readBytes32) fun f v => { f with secret := some v },
    required 4 readStatus fun f v => { f with status := some v },
    required 6 readAmount fun f v => { f with amtMsat := some v }]

/-- The four fields of a record, under the types 0, 2, 4 and 6. -/
def writeInfo (info : PaymentInfo) : List UInt8 :=
  writeTlvFields [(0, writeOption writeBytes32 info.preimage),
    (2, writeOption writeBytes32 info.secret), (4, writeStatus info.status),
    (6, writeAmount info.amtMsat)]

/-- The constructor at the end of the reader unwraps every required field. -/
def unwrapInfo (f : PaymentInfoFields) : Option PaymentInfo := do
  some ⟨← f.preimage, ← f.secret, ← f.status, ← f.amtMsat⟩

/-- A record from its fields; each is required, so the final `unwrap`s are safe. -/
def readInfo : Reader PaymentInfo := do
  let f ← readTlvFields paymentInfoFields {}
  unwrap (unwrapInfo f)

/-- The one field of the two stores. -/
structure StorageFields where
  payments : Option (Std.ExtTreeMap Bytes32 PaymentInfo) := none

/-- `impl_writeable_tlv_based!` of both stores. -/
def storageFields : List (TlvField StorageFields) :=
  [required 0 (readMap readBytes32 readInfo) fun _ v => ⟨some v⟩]

/-- A store is a stream with its map as the only field. -/
def writeStorage (entries : List (Bytes32 × PaymentInfo)) : List UInt8 :=
  writeTlvFields [(0, writeMap writeBytes32 writeInfo entries)]

/-- A store from its stream. -/
def readStorage : Reader (Std.ExtTreeMap Bytes32 PaymentInfo) := do
  let f ← readTlvFields storageFields {}
  unwrap f.payments

/-- `InboundPaymentInfoStorage::write`. -/
def writeInbound (entries : List (PaymentHash × PaymentInfo)) : List UInt8 :=
  writeStorage entries

/-- `InboundPaymentInfoStorage::read`. -/
def readInbound : Reader InboundPaymentInfoStorage := readStorage

/-- `OutboundPaymentInfoStorage::write`. -/
def writeOutbound (entries : List (PaymentId × PaymentInfo)) : List UInt8 :=
  writeStorage entries

/-- `OutboundPaymentInfoStorage::read`. -/
def readOutbound : Reader OutboundPaymentInfoStorage := readStorage

/-! ## Field by field -/

@[simp] theorem writeBytes32_length (b : Bytes32) : (writeBytes32 b).length = 32 :=
  Vector.length_toList

@[simp] theorem writeU64_length (n : UInt64) : (writeU64 n).length = 8 :=
  toBytes_length 8 n.toNat

/-- Reading an array takes what it used and nothing after it. -/
theorem readBytes32_sound : Sound readBytes32 :=
  sound_bind (readExact_sound 32) fun _ => sound_pure _

/-- An array is read back. -/
theorem readBytes32_reads (b : Bytes32) : Reads readBytes32 (writeBytes32 b) b := by
  have hr := readExact_reads (writeBytes32 b)
  rw [writeBytes32_length] at hr
  refine reads_bind_last hr ?_
  have hb : Vector.ofFn (fun i : Fin 32 => (writeBytes32 b).getD i 0) = b := by
    apply Vector.ext
    intro i hi
    simp [writeBytes32]
  rw [hb]
  exact reads_pure b

theorem readU64_sound : Sound readU64 :=
  sound_bind (readUInt_sound 8) fun _ => sound_pure _

/-- An integer is read back. -/
theorem readU64_reads (n : UInt64) : Reads readU64 (writeU64 n) n := by
  refine reads_bind_last (readUInt_reads n.toNat_lt) ?_
  rw [UInt64.ofNat_toNat]
  exact reads_pure n

/-- Reading a status is sound, as its empty fields are. -/
theorem readStatus_sound : Sound readStatus := by
  refine sound_bind (readUInt_sound 1) fun id => ?_
  cases statusOfId id with
  | none => exact sound_fail nofun
  | some status =>
      exact sound_bind (readTlvFields_sound nofun ()) fun _ => sound_pure _

/-- Each status is read back from its byte. -/
theorem readStatus_reads (status : HTLCStatus) :
    Reads readStatus (writeStatus status) status := by
  have hid : statusOfId (statusId status) = some status := by cases status <;> rfl
  have hlt : statusId status < 256 ^ 1 := by cases status <;> decide
  refine reads_bind (readUInt_reads hlt) ?_
  rw [hid]
  have hempty : Reads (readTlvFields ([] : List (TlvField Unit)) ()) (writeTlvFields []) () :=
    readTlvFields_reads [] rfl List.Pairwise.nil rfl (by decide)
  exact reads_bind_last hempty (reads_pure status)

theorem readAmount_sound : Sound readAmount :=
  sound_bind (readOption_sound readU64_sound) fun _ => sound_pure _

/-- An amount is read back, also where there is none. -/
theorem readAmount_reads (amount : MillisatAmount) :
    Reads readAmount (writeAmount amount) amount := by
  refine reads_bind_last (readOption_reads fun n _ => ⟨readU64_reads n, ?_⟩) (reads_pure _)
  rw [writeU64_length]
  decide

/-- An optional array is read back; preimage and secret are such. -/
theorem readPreimage_reads (o : Option Bytes32) :
    Reads (readOption readBytes32) (writeOption writeBytes32 o) o := by
  refine readOption_reads fun b _ => ⟨readBytes32_reads b, ?_⟩
  rw [writeBytes32_length]
  decide

/-! ## The required fields have been seen -/

/-- The field with this number has its value. -/
def InfoStored (field : TlvField PaymentInfoFields) (f : PaymentInfoFields) : Prop :=
  (field.type = 0 → f.preimage.isSome) ∧ (field.type = 2 → f.secret.isSome) ∧
    (field.type = 4 → f.status.isSome) ∧ (field.type = 6 → f.amtMsat.isSome)

/-- The types of a record's fields rise. -/
theorem paymentInfoFields_rising : Rising paymentInfoFields := by
  simp [Rising, paymentInfoFields]

/-- Each of its fields is read soundly. -/
theorem paymentInfoFields_sound :
    ∀ field ∈ paymentInfoFields, ∀ f, Sound (field.read f) := by
  intro field hfield f
  simp only [paymentInfoFields, List.mem_cons, List.not_mem_nil, or_false] at hfield
  rcases hfield with rfl | rfl | rfl | rfl
  · exact required_sound (readOption_sound readBytes32_sound) f
  · exact required_sound (readOption_sound readBytes32_sound) f
  · exact required_sound readStatus_sound f
  · exact required_sound readAmount_sound f

/-- Each field stores its own value and leaves the others. -/
theorem paymentInfoFields_store :
    ∀ field ∈ paymentInfoFields, ∀ f s f' rest, (field.read f).run s = .ok (f', rest) →
      InfoStored field f' ∧
        ∀ other ∈ paymentInfoFields, InfoStored other f → InfoStored other f' := by
  intro field hfield f s f' rest h
  simp only [paymentInfoFields, List.mem_cons, List.not_mem_nil, or_false] at hfield
  rcases hfield with rfl | rfl | rfl | rfl <;>
    · obtain ⟨v, rfl⟩ := required_run h
      refine ⟨?_, fun other _ hother => ?_⟩
      · simp [InfoStored]
      · grind [InfoStored]

/-- The constructor finds every field. -/
theorem unwrapInfo_isSome {f : PaymentInfoFields} {s rest : List UInt8}
    (h : (readTlvFields paymentInfoFields {}).run s = .ok (f, rest)) :
    ∃ info, unwrapInfo f = some info := by
  obtain ⟨stream, hstream⟩ := readTlvFields_stream h
  have hall : ∀ field ∈ paymentInfoFields, InfoStored field f := fun field hfield =>
    decodeTlvStream_complete InfoStored paymentInfoFields_rising paymentInfoFields_store hstream hfield
      (Or.inl (by rintro _ ⟨⟩))
  simp only [paymentInfoFields, List.forall_mem_cons] at hall
  obtain ⟨h0, h2, h4, h6, -⟩ := hall
  obtain ⟨preimage, hp⟩ := Option.isSome_iff_exists.mp (h0.1 rfl)
  obtain ⟨secret, hs⟩ := Option.isSome_iff_exists.mp (h2.2.1 rfl)
  obtain ⟨status, hst⟩ := Option.isSome_iff_exists.mp (h4.2.2.1 rfl)
  obtain ⟨amtMsat, ha⟩ := Option.isSome_iff_exists.mp (h6.2.2.2 rfl)
  exact ⟨⟨preimage, secret, status, amtMsat⟩, by rw [unwrapInfo, hp, hs, hst, ha]; rfl⟩

theorem readInfo_sound : Sound readInfo :=
  sound_unwrap (readTlvFields_sound paymentInfoFields_sound {}) fun _ _ _ h =>
    unwrapInfo_isSome h

/-- The only field of a store is read soundly. -/
theorem storageFields_sound : ∀ field ∈ storageFields, ∀ f, Sound (field.read f) := by
  intro field hfield f
  rw [List.mem_singleton.mp hfield]
  exact required_sound (readMap_sound readBytes32_sound readInfo_sound) f

/-- A single type rises. -/
theorem storageFields_rising : Rising storageFields := List.pairwise_singleton _ _

theorem readStorage_sound : Sound readStorage := by
  refine sound_unwrap (readTlvFields_sound storageFields_sound {}) fun s f rest h => ?_
  obtain ⟨stream, hstream⟩ := readTlvFields_stream h
  have hset : f.payments.isSome :=
    decodeTlvStream_complete (fun _ f => f.payments.isSome) storageFields_rising
      (fun field hfield st s st' rest hrun => by
        rw [List.mem_singleton.mp hfield] at hrun
        obtain ⟨v, rfl⟩ := required_run hrun
        exact ⟨rfl, fun _ _ _ => rfl⟩)
      hstream (List.mem_singleton.mpr rfl) (Or.inl (by rintro _ ⟨⟩))
  exact Option.isSome_iff_exists.mp hset

/-! ## Reading back what was written -/

/-- The fields of a record with their bytes. -/
def infoTlvs (info : PaymentInfo) : List (TlvField PaymentInfoFields × List UInt8) :=
  paymentInfoFields.zip [writeOption writeBytes32 info.preimage,
    writeOption writeBytes32 info.secret, writeStatus info.status, writeAmount info.amtMsat]

/-- A record is written field by field. -/
theorem writeInfo_eq (info : PaymentInfo) :
    writeInfo info = writeTlvFields ((infoTlvs info).map fun f => (f.1.type, f.2)) := rfl

private theorem writePreimage_length (o : Option Bytes32) :
    (writeOption writeBytes32 o).length ≤ 9 + 32 :=
  writeOption_length writeBytes32_length o

private theorem writeStatus_length (status : HTLCStatus) : (writeStatus status).length = 2 := by
  cases status <;> rfl

private theorem writeAmount_length (amount : MillisatAmount) :
    (writeAmount amount).length ≤ 9 + 8 :=
  writeOption_length writeU64_length amount.msat

/-- The fields of a record are 173 bytes at most, so their length fits. -/
private theorem infoStream_length (info : PaymentInfo) :
    ((infoTlvs info).flatMap fun f => writeTlv f.1.type f.2).length ≤ 173 := by
  have h0 := writeTlv_length 0 (writeOption writeBytes32 info.preimage)
  have h2 := writeTlv_length 2 (writeOption writeBytes32 info.secret)
  have h4 := writeTlv_length 4 (writeStatus info.status)
  have h6 := writeTlv_length 6 (writeAmount info.amtMsat)
  have hp := writePreimage_length info.preimage
  have hs := writePreimage_length info.secret
  have hst := writeStatus_length info.status
  have ha := writeAmount_length info.amtMsat
  simp only [infoTlvs, paymentInfoFields, List.zip_cons_cons, List.zip_nil_right,
    List.flatMap_cons, List.flatMap_nil, List.length_append, List.length_nil, required_type]
  omega

/-- A record takes at most 182 bytes. -/
theorem writeInfo_length (info : PaymentInfo) : (writeInfo info).length ≤ 182 := by
  have hstream := infoStream_length info
  have hsize := writeBigSize_length
    ((infoTlvs info).flatMap fun f => writeTlv f.1.type f.2).length
  rw [writeInfo_eq, writeTlvFields]
  simp only [List.flatMap_map, List.length_append]
  omega

/-- **A RECORD IS READ BACK** from what was written of it. -/
theorem readInfo_reads (info : PaymentInfo) : Reads readInfo (writeInfo info) info := by
  have hstream := infoStream_length info
  have hstores : Stores (infoTlvs info) {}
      ⟨some info.preimage, some info.secret, some info.status, some info.amtMsat⟩ := by
    have hp := writePreimage_length info.preimage
    have hs := writePreimage_length info.secret
    have hst := writeStatus_length info.status
    have ha := writeAmount_length info.amtMsat
    refine ⟨by decide, by omega, _, required_reads (readPreimage_reads _) _, ?_⟩
    refine ⟨by decide, by omega, _, required_reads (readPreimage_reads _) _, ?_⟩
    refine ⟨by decide, by omega, _, required_reads (readStatus_reads _) _, ?_⟩
    exact ⟨by decide, by omega, _, required_reads (readAmount_reads _) _, rfl⟩
  have hread := readTlvFields_reads (infoTlvs info) rfl paymentInfoFields_rising hstores
    (by omega)
  exact reads_bind_last hread (reads_pure info)

/-- A record without preimage, secret and amount: 13 bytes behind their length. -/
example : writeInfo ⟨none, none, .pending, ⟨none⟩⟩
    = [13, 0, 1, 0, 2, 1, 0, 4, 2, 0, 0, 6, 1, 0] := by decide

/-! ## The two files -/

/-- The entries that a map in memory may have: an allocation is at most `isize::MAX`
    bytes, and a hash with its `PaymentInfo` takes 120. -/
def maxRecords : Nat := (2 ^ 63 - 1) / 120

/-- A `HashMap` of the process: what it maps, and the order in which it happens to be
    iterated. -/
structure PaymentMap where
  payments : Std.ExtTreeMap Bytes32 PaymentInfo
  order : List (Bytes32 × PaymentInfo)
  iterates : order.Perm payments.toList
  fits : payments.size ≤ maxRecords

/-- `r` reads the file `w` as `a`, and no proper prefix of it: a truncated file is an
    error and no panic. -/
def DecodesOnly {α : Type} (r : Reader α) (w : List UInt8) (a : α) : Prop :=
  r.run w = .ok (a, []) ∧
    ∀ p, p <+: w → p ≠ w → ∃ e, r.run p = .error e ∧ e ≠ .panicked

/-- The field of a store with its bytes. -/
def storageTlvs (entries : List (Bytes32 × PaymentInfo)) :
    List (TlvField StorageFields × List UInt8) :=
  storageFields.zip [writeMap writeBytes32 writeInfo entries]

/-- An entry of the map takes 214 bytes at most. -/
theorem entries_length (entries : List (Bytes32 × PaymentInfo)) :
    (entries.flatMap fun e => writeBytes32 e.1 ++ writeInfo e.2).length
      ≤ 214 * entries.length := by
  induction entries with
  | nil => exact Nat.le_refl 0
  | cons e rest ih =>
      have hinfo := writeInfo_length e.2
      rw [List.flatMap_cons, List.length_append, List.length_append, List.length_cons,
        writeBytes32_length]
      omega

/-- The length of a collection is ten bytes at most. -/
theorem writeCollectionLength_length (n : Nat) : (writeCollectionLength n).length ≤ 10 := by
  rw [writeCollectionLength]
  split <;> simp

/-- A store is read back: by `maxRecords` its length fits into a `u64`. -/
theorem readStorage_reads (m : PaymentMap) :
    Reads readStorage (writeStorage m.order) m.payments := by
  have hcount : m.order.length ≤ maxRecords := by
    rw [m.iterates.length_eq, Std.ExtTreeMap.length_toList]
    exact m.fits
  have hentries := entries_length m.order
  have hfield := writeCollectionLength_length m.order.length
  -- what fits in memory keeps every length within 64 bits
  have hmap : (writeMap writeBytes32 writeInfo m.order).length < 2 ^ 64 - 18 := by
    rw [writeMap, List.length_append]
    rw [maxRecords] at hcount
    omega
  have htlv := writeTlv_length 0 (writeMap writeBytes32 writeInfo m.order)
  have hlen : m.order.length < 2 ^ 64 := by
    rw [maxRecords] at hcount
    omega
  have hread := readMap_reads m.iterates hlen readBytes32_reads
    (fun e _ => readInfo_reads e.2)
  have hstores : Stores (storageTlvs m.order) {} ⟨some m.payments⟩ :=
    ⟨by decide, by omega, _, required_reads hread _, rfl⟩
  have hstream : ((storageTlvs m.order).flatMap fun f => writeTlv f.1.type f.2).length
      < 2 ^ 64 := by
    simp only [storageTlvs, storageFields, List.zip_cons_cons, List.zip_nil_right,
      List.flatMap_cons, List.flatMap_nil, List.append_nil, required_type]
    omega
  have hfields := readTlvFields_reads (storageTlvs m.order) rfl storageFields_rising hstores
    hstream
  exact reads_bind_last hfields (reads_pure m.payments)

/-- A store is read back, and from no proper prefix of its bytes. -/
theorem readStorage_decodesOnly (m : PaymentMap) :
    DecodesOnly readStorage (writeStorage m.order) m.payments := by
  have hreads := readStorage_reads m
  refine ⟨?_, fun p hp hne => prefix_rejected readStorage_sound hreads hp hne⟩
  have hall := hreads []
  rwa [List.append_nil] at hall

/-- **FILES DECODE**: each payment file, in whatever order its map was iterated,
    decodes to the map, and none of its proper prefixes decodes. -/
theorem payment_files_decode (inbound outbound : PaymentMap) :
    DecodesOnly readInbound (writeInbound inbound.order) inbound.payments ∧
      DecodesOnly readOutbound (writeOutbound outbound.order) outbound.payments :=
  ⟨readStorage_decodesOnly inbound, readStorage_decodesOnly outbound⟩

/-- A payment that is pending, and one that has succeeded. -/
def twoPayments : Std.ExtTreeMap Bytes32 PaymentInfo :=
  ((∅ : Std.ExtTreeMap Bytes32 PaymentInfo).insert (Vector.replicate 32 1)
    ⟨none, none, .pending, ⟨some 1000⟩⟩).insert (Vector.replicate 32 2)
    ⟨some (Vector.replicate 32 3), none, .succeeded, ⟨none⟩⟩

/-- The two, the later key first. -/
def twoEntries : List (Bytes32 × PaymentInfo) :=
  [(Vector.replicate 32 2, ⟨some (Vector.replicate 32 3), none, .succeeded, ⟨none⟩⟩),
    (Vector.replicate 32 1, ⟨none, none, .pending, ⟨some 1000⟩⟩)]

/-- The two entries are those of the map. -/
theorem twoEntries_iterates : twoEntries.Perm twoPayments.toList := by decide +kernel

theorem twoPayments_fits : twoPayments.size ≤ maxRecords := by decide +kernel

/-- A store of two payments, in an order that is not that of the keys. -/
def twoRecords : PaymentMap := ⟨twoPayments, twoEntries, twoEntries_iterates, twoPayments_fits⟩

/-- Two payments, one of them settled, as both files. -/
theorem payment_files_decode_twoRecords :
    DecodesOnly readInbound (writeInbound twoEntries) twoPayments ∧
      DecodesOnly readOutbound (writeOutbound twoEntries) twoPayments :=
  payment_files_decode twoRecords twoRecords

/-! ## What the start-up reads -/

/-- `read_inbound_payment_info` and `read_outbound_payment_info` over the bytes of the
    file: whatever does not decode is an empty store. -/
def readPaymentFile (r : Reader (Std.ExtTreeMap Bytes32 PaymentInfo))
    (file : Option (List UInt8)) : Std.ExtTreeMap Bytes32 PaymentInfo :=
  match file with
  | some bytes =>
      match r.run bytes with
      | .ok (info, _) => info
      | .error _ => ∅
  | none => ∅

/-- What was written is what a start finds. -/
theorem readPaymentFile_written (m : PaymentMap) :
    readPaymentFile readStorage (some (writeStorage m.order)) = m.payments := by
  simp only [readPaymentFile, (readStorage_decodesOnly m).1]

/-- A file that was cut short is taken for an empty store. -/
theorem readPaymentFile_truncated (m : PaymentMap) {p : List UInt8}
    (hp : p <+: writeStorage m.order) (hne : p ≠ writeStorage m.order) :
    readPaymentFile readStorage (some p) = ∅ := by
  obtain ⟨e, he, -⟩ := (readStorage_decodesOnly m).2 p hp hne
  simp only [readPaymentFile, he]

end PaymentCodec
