import Scorer.PaymentCodecProofs
import Scorer.TlvUnknownProofs

/-! # Payment files of a later version

    A node that is downgraded finds payment files with fields that it does not
    know: in the records, in the store around them, or in both.

    * `LaterInfo`, `LaterFile`: what such a version writes, whatever its own fields
      are; each carries the proof that it holds the fields of this version;
    * `later_files_decode`: the start-up reads exactly the payments of the file when
      every field of its own has an odd number, and otherwise begins empty. -/

namespace PaymentVersions

open ByteReader LengthPrefix TlvStream TlvUnknown PaymentStore PaymentCodec

/-- A record: the four fields of this version, and others. -/
structure LaterInfo where
  info : PaymentInfo
  tlvs : List (Nat × List UInt8)
  fields : Extends (infoTlvs info) tlvs
  ordered : WellOrdered tlvs
  fits : (stream tlvs).length < 2 ^ 64

/-- The bytes of such a record. -/
def LaterInfo.bytes (r : LaterInfo) : List UInt8 := writeTlvFields r.tlvs

/-- A file: a map of such records in a store with other fields than `payments`, in
    some order of iteration. -/
structure LaterFile where
  payments : Std.ExtTreeMap Bytes32 PaymentInfo
  entries : List (Bytes32 × LaterInfo)
  iterates : (entries.map fun e => (e.1, e.2.info)).Perm payments.toList
  count : entries.length < 2 ^ 64
  tlvs : List (Nat × List UInt8)
  fields : Extends
    (storageFields.zip [writeMap writeBytes32 LaterInfo.bytes entries]) tlvs
  ordered : WellOrdered tlvs
  fits : (stream tlvs).length < 2 ^ 64

/-- The bytes of such a file. -/
def LaterFile.bytes (f : LaterFile) : List UInt8 := writeTlvFields f.tlvs

/-- All fields that this version does not know are odd. -/
structure LaterFile.OnlyOdd (f : LaterFile) : Prop where
  store : OthersOdd storageFields f.tlvs
  records : ∀ e ∈ f.entries, OthersOdd paymentInfoFields e.2.tlvs

/-! ## Records -/

/-- The fields of this version store the record. -/
theorem infoTlvs_stores (info : PaymentInfo) :
    Stores (infoTlvs info) {}
      ⟨some info.preimage, some info.secret, some info.status, some info.amtMsat⟩ := by
  have hp := writeOption_length writeBytes32_length info.preimage
  have hs := writeOption_length writeBytes32_length info.secret
  have ha : (writeAmount info.amtMsat).length ≤ 9 + 8 :=
    writeOption_length writeU64_length info.amtMsat.msat
  have hst : (writeStatus info.status).length = 2 := by
    cases info.status <;> rfl
  refine ⟨by decide, by omega, _, required_reads (readPreimage_reads _) _, ?_⟩
  refine ⟨by decide, by omega, _, required_reads (readPreimage_reads _) _, ?_⟩
  refine ⟨by decide, by omega, _, required_reads (readStatus_reads _) _, ?_⟩
  exact ⟨by decide, by omega, _, required_reads (readAmount_reads _) _, rfl⟩

/-- A later record is read if its new fields are odd, and refused otherwise. -/
theorem readInfo_later (r : LaterInfo) :
    (OthersOdd paymentInfoFields r.tlvs → Reads readInfo r.bytes r.info) ∧
      (¬ OthersOdd paymentInfoFields r.tlvs →
        Refuses readInfo r.bytes .unknownRequiredFeature) := by
  obtain ⟨hok, herr⟩ := readTlvFields_extended r.fields rfl paymentInfoFields_rising
    r.ordered r.fits (infoTlvs_stores r.info)
  exact ⟨fun hodd => reads_bind_last (hok hodd) (reads_pure r.info),
    fun hnot => refuses_bind_all (herr hnot)⟩

/-! ## Files -/

variable (f : LaterFile)

/-- The keys of the entries are those of a map. -/
private theorem keys_distinct : f.entries.Pairwise fun x y => x.1 ≠ y.1 := by
  have hdistinct := f.iterates.symm.pairwise (Std.ExtTreeMap.distinct_keys_toList)
    (fun hne heq => hne (by rw [Std.OrientedCmp.eq_comm]; exact heq))
  rw [List.pairwise_map] at hdistinct
  refine hdistinct.imp fun {x y} hne heq => hne ?_
  rw [heq]
  exact Std.ReflCmp.compare_self

/-- A map of later records is read likewise, and one even field is enough to refuse it. -/
theorem readMap_later :
    ((∀ e ∈ f.entries, OthersOdd paymentInfoFields e.2.tlvs) →
      Reads (readMap readBytes32 readInfo)
        (writeMap writeBytes32 LaterInfo.bytes f.entries) f.payments) ∧
      ((∃ e ∈ f.entries, ¬ OthersOdd paymentInfoFields e.2.tlvs) →
        Refuses (readMap readBytes32 readInfo)
          (writeMap writeBytes32 LaterInfo.bytes f.entries) .unknownRequiredFeature) := by
  have hempty : ∀ x ∈ f.entries, x.1 ∉ (∅ : Std.ExtTreeMap Bytes32 PaymentInfo) :=
    fun x _ => by simp
  have hread := readEntries_extended LaterInfo.info LaterInfo.bytes
    (fun r => OthersOdd paymentInfoFields r.tlvs) readBytes32_reads
    (fun r => (readInfo_later r).1) (fun r => (readInfo_later r).2) hempty (keys_distinct f)
  rw [insertMany_entries f.iterates] at hread
  exact ⟨fun hall => reads_bind (readCollectionLength_reads f.count) (hread.1 hall),
    fun hbad => refuses_bind_second (readCollectionLength_reads f.count) (hread.2 hbad)⟩

theorem readStorage_later :
    (f.OnlyOdd → Reads readStorage f.bytes f.payments) ∧
      (¬ f.OnlyOdd → Refuses readStorage f.bytes .unknownRequiredFeature) := by
  obtain ⟨rest, htlvs⟩ := Extends.zero f.fields rfl f.ordered
  obtain ⟨-, hw⟩ := f.ordered.fits _ (htlvs ▸ List.mem_cons_self)
  by_cases hrecords : ∀ e ∈ f.entries, OthersOdd paymentInfoFields e.2.tlvs
  · -- the map is read, so the fields around it decide
    have hstores : Stores (storageFields.zip
        [writeMap writeBytes32 LaterInfo.bytes f.entries]) {} ⟨some f.payments⟩ :=
      ⟨by decide, hw, _, required_reads ((readMap_later f).1 hrecords) _, rfl⟩
    obtain ⟨hok, herr⟩ := readTlvFields_extended f.fields rfl storageFields_rising f.ordered
      f.fits hstores
    exact ⟨fun hodd => reads_bind_last (hok hodd.store) (reads_pure f.payments),
      fun hnot => refuses_bind_all (herr fun hstore => hnot ⟨hstore, hrecords⟩)⟩
  · refine ⟨fun hodd => absurd hodd.records hrecords, fun _ => ?_⟩
    -- a record is refused, and the map is the first field of the file
    have hbad : ∃ e ∈ f.entries, ¬ OthersOdd paymentInfoFields e.2.tlvs := by
      simpa using hrecords
    have hmap := (readMap_later f).2 hbad
    have hfile : f.bytes = writeTlvFields f.tlvs := rfl
    rw [hfile, htlvs]
    refine refuses_bind_all (readTlvFields_refused storageFields_rising
      (List.mem_singleton.mpr rfl) (fun g _ => Nat.not_lt_zero _) (htlvs ▸ f.ordered)
      (htlvs ▸ f.fits) (refuses_bind_all hmap))

/-- What the start-up makes of a file of a later version. -/
def ReadsLater (read : Reader (Std.ExtTreeMap Bytes32 PaymentInfo)) : Prop :=
  (read.run f.bytes = .ok (f.payments, []) ↔ f.OnlyOdd) ∧
    (f.OnlyOdd → readPaymentFile read (some f.bytes) = f.payments) ∧
    (¬ f.OnlyOdd → readPaymentFile read (some f.bytes) = ∅)

/-- The same, as it is stated for a reader. -/
theorem readsLater_storage : ReadsLater f readStorage := by
  obtain ⟨hok, herr⟩ := readStorage_later f
  have hrunOk : f.OnlyOdd → readStorage.run f.bytes = .ok (f.payments, []) := by
    intro hodd
    have h := hok hodd []
    rwa [List.append_nil] at h
  have hrunErr : ¬ f.OnlyOdd → readStorage.run f.bytes = .error .unknownRequiredFeature := by
    intro hnot
    have h := herr hnot []
    rwa [List.append_nil] at h
  refine ⟨⟨fun h => ?_, hrunOk⟩, fun hodd => ?_, fun hnot => ?_⟩
  · by_contra hnot
    cases (hrunErr hnot).symm.trans h
  · simp only [readPaymentFile, hrunOk hodd]
  · simp only [readPaymentFile, hrunErr hnot]

/-- **DOWNGRADE**: a payment file with fields of a later version, in its records or
    around them, decodes to its payments when all of these fields have odd numbers;
    one even number among them, in whatever record, and the start-up begins with an
    empty store. -/
theorem later_files_decode (inbound outbound : LaterFile) :
    ReadsLater inbound readInbound ∧ ReadsLater outbound readOutbound :=
  ⟨readsLater_storage inbound, readsLater_storage outbound⟩

/-! ## A file with one record -/

/-- A field number above those that this version knows. -/
structure LaterType where
  type  : Nat
  later : 6 < type
  fits  : type < 2 ^ 64

/-- A pending payment with one more field. -/
def laterTlvs (t : LaterType) : List (Nat × List UInt8) :=
  [(0, [0]), (2, [0]), (4, [0, 0]), (6, [0]), (t.type, [7])]

/-- The types rise with the new one at the end. -/
theorem laterTlvs_wellOrdered (t : LaterType) : WellOrdered (laterTlvs t) where
  rising := by
    have hlater := t.later
    simp only [laterTlvs, List.pairwise_cons, List.mem_cons, List.not_mem_nil, or_false,
      forall_eq_or_imp, forall_eq]
    simp
    omega
  fits := by
    have hfits := t.fits
    simp only [laterTlvs, List.mem_cons, List.not_mem_nil, or_false, forall_eq_or_imp,
      forall_eq]
    simp
    exact hfits

theorem laterTlvs_length (t : LaterType) : (stream (laterTlvs t)).length ≤ 96 := by
  have h0 := writeTlv_length 0 [0]
  have h2 := writeTlv_length 2 [0]
  have h4 := writeTlv_length 4 [0, 0]
  have h6 := writeTlv_length 6 [0]
  have ht := writeTlv_length t.type [7]
  simp only [stream, laterTlvs, List.flatMap_cons, List.flatMap_nil, List.length_append,
    List.length_cons, List.length_nil] at h0 h2 h4 h6 ht ⊢
  omega

/-- The known fields are those of this version. -/
theorem laterTlvs_extends (t : LaterType) :
    Extends (infoTlvs ⟨none, none, .pending, ⟨none⟩⟩) (laterTlvs t) :=
  .known _ [0] (.known _ [0] (.known _ [0, 0] (.known _ [0] (.other t.type [7] .done))))

/-- The record with its additional field. -/
def laterInfo (t : LaterType) : LaterInfo where
  info := ⟨none, none, .pending, ⟨none⟩⟩
  tlvs := laterTlvs t
  fields := laterTlvs_extends t
  ordered := laterTlvs_wellOrdered t
  fits := lt_of_le_of_lt (laterTlvs_length t) (by decide)

/-- The one payment of the file. -/
def laterPayments : Std.ExtTreeMap Bytes32 PaymentInfo :=
  (∅ : Std.ExtTreeMap Bytes32 PaymentInfo).insert (Vector.replicate 32 1)
    ⟨none, none, .pending, ⟨none⟩⟩

/-- The one entry is that of the map. -/
theorem laterPayments_iterates :
    [((Vector.replicate 32 1 : Bytes32), (⟨none, none, .pending, ⟨none⟩⟩ : PaymentInfo))].Perm
      laterPayments.toList := by decide +kernel

/-- The bytes of the map with the record. -/
def laterMap (t : LaterType) : List UInt8 :=
  writeMap writeBytes32 LaterInfo.bytes [(Vector.replicate 32 1, laterInfo t)]

theorem laterMap_length (t : LaterType) : (laterMap t).length ≤ 147 := by
  have hstream := laterTlvs_length t
  have hsize := writeBigSize_length (stream (laterTlvs t)).length
  have hcount := writeCollectionLength_length 1
  have hbytes : (laterInfo t).bytes.length =
      (writeBigSize (stream (laterTlvs t)).length).length + (stream (laterTlvs t)).length :=
    List.length_append
  show (writeCollectionLength 1 ++
    ((writeBytes32 (Vector.replicate 32 1) ++ (laterInfo t).bytes) ++ [])).length ≤ 147
  simp only [List.length_append, List.length_nil, writeBytes32_length, hbytes]
  omega

theorem laterMap_fits (t : LaterType) : (stream [(0, laterMap t)]).length < 2 ^ 64 := by
  have hlength := laterMap_length t
  have htlv := writeTlv_length 0 (laterMap t)
  simp only [stream, List.flatMap_cons, List.flatMap_nil, List.append_nil]
  omega

/-- A file with one record, which has one more field. -/
def laterFile (t : LaterType) : LaterFile where
  payments := laterPayments
  entries := [(Vector.replicate 32 1, laterInfo t)]
  iterates := laterPayments_iterates
  count := Nat.one_lt_two_pow (by decide)
  tlvs := [(0, laterMap t)]
  fields := .known _ _ .done
  ordered :=
    ⟨List.pairwise_singleton _ _, List.forall_mem_singleton.mpr
      ⟨Nat.two_pow_pos 64, lt_of_le_of_lt (laterMap_length t) (by decide)⟩⟩
  fits := laterMap_fits t

/-- The additional field decides. -/
theorem laterFile_onlyOdd (t : LaterType) : (laterFile t).OnlyOdd ↔ t.type % 2 = 1 := by
  have hlater := t.later
  constructor
  · intro h
    have hmem : (t.type, [7]) ∈ (laterInfo t).tlvs := by simp [laterInfo, laterTlvs]
    -- the new field is none of the four known ones
    refine h.records _ (List.mem_singleton_self _) (t.type, [7]) hmem fun field hfield => ?_
    simp only [paymentInfoFields, List.mem_cons, List.not_mem_nil, or_false] at hfield
    rcases hfield with rfl | rfl | rfl | rfl <;> simp only [required_type] <;> omega
  · intro hodd
    refine ⟨fun e he hne => ?_, List.forall_mem_singleton.mpr fun e he hne => ?_⟩
    · obtain rfl := List.mem_singleton.mp he
      exact absurd rfl (hne _ (List.mem_singleton_self _))
    · simp only [laterInfo, laterTlvs, List.mem_cons, List.not_mem_nil, or_false] at he
      simp only [paymentInfoFields, List.forall_mem_cons, required_type] at hne
      rcases he with rfl | rfl | rfl | rfl | rfl <;> simp_all

/-- A type that may be skipped. -/
def oddType : LaterType := ⟨9, by decide, by decide⟩

/-- A type that must be understood. -/
def evenType : LaterType := ⟨8, by decide, by decide⟩

/-- One new field: read if it is odd, an empty store if it is even. -/
theorem later_files_decode_oneField :
    readPaymentFile readInbound (some (laterFile oddType).bytes) = laterPayments ∧
      readPaymentFile readOutbound (some (laterFile evenType).bytes) = ∅ := by
  obtain ⟨⟨-, hodd, -⟩, -, -, heven⟩ := later_files_decode (laterFile oddType) (laterFile evenType)
  exact ⟨hodd ((laterFile_onlyOdd _).mpr rfl),
    heven fun h => absurd ((laterFile_onlyOdd _).mp h) (by decide)⟩

end PaymentVersions
