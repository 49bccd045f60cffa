import Scorer.PaymentCodecProofs
import Scorer.PaymentRefineProofs

/-! # The bytes of a running node

    The node writes its two maps with the codec of `state.rs`, in whatever order they
    are iterated, and reads them back when it starts.

    * `fileCodec`, `fileEnv`: that codec as the encoding of the model of the node;
    * `readPaymentInfo_bytes`: what a start of the node makes of a file is what the
      reader of the bytes makes of it;
    * `node_files_read_back`: at any point of any run at which the newest write of a file
      has succeeded, its bytes decode to the records in memory, and no proper prefix of
      them does. -/

namespace PaymentFiles

open ByteReader LabelledRun LockedStore PaymentCodec PaymentNode PaymentRefine
open PaymentStore WriteOrder

/-- The orders in which the process happens to iterate its maps. -/
structure IterationOrder where
  entries  : Std.ExtTreeMap Bytes32 PaymentInfo → List (Bytes32 × PaymentInfo)
  iterates : ∀ payments, (entries payments).Perm payments.toList

/-- A payment file: its bytes.  A map that does not fit in memory has none, and stands
    for itself. -/
inductive Stored where
  | bytes (file : List UInt8)
  | tooLarge (payments : Std.ExtTreeMap Bytes32 PaymentInfo)

variable (order : IterationOrder)

/-- `Writeable::encode` of a store. -/
def encodeStorage (payments : Std.ExtTreeMap Bytes32 PaymentInfo) : Stored :=
  if payments.size ≤ maxRecords then .bytes (writeStorage (order.entries payments))
  else .tooLarge payments

/-- `Readable::read` of a store. -/
def decodeStorage : Stored → Option (Std.ExtTreeMap Bytes32 PaymentInfo)
  | .bytes file =>
      match readStorage.run file with
      | .ok (payments, _) => some payments
      | .error _ => none
  | .tooLarge payments => some payments

variable {order}

/-- A map that fits has bytes, which decode to it. -/
theorem encodeStorage_decodesOnly {payments : Std.ExtTreeMap Bytes32 PaymentInfo}
    (hfits : payments.size ≤ maxRecords) :
    DecodesOnly readStorage (writeStorage (order.entries payments)) payments :=
  readStorage_decodesOnly ⟨payments, order.entries payments, order.iterates payments, hfits⟩

theorem decodeStorage_encodeStorage (payments : Std.ExtTreeMap Bytes32 PaymentInfo) :
    decodeStorage (encodeStorage order payments) = some payments := by
  rw [encodeStorage]
  by_cases hfits : payments.size ≤ maxRecords
  · rw [if_pos hfits, decodeStorage, (encodeStorage_decodesOnly hfits).1]
  · rw [if_neg hfits, decodeStorage]

variable (order) (sha256 : Bytes32 → Bytes32)

/-- The codec of the two stores. -/
def fileCodec : Codec (Std.ExtTreeMap Bytes32 PaymentInfo) Stored :=
  ⟨encodeStorage order, decodeStorage, decodeStorage_encodeStorage⟩

/-- A node that keeps its files with it. -/
def fileEnv : NodeEnv Stored := ⟨fileCodec order, fileCodec order, sha256⟩

variable {order sha256}

/-- **ONE START**: the node begins with what the reader of the bytes finds. -/
theorem readPaymentInfo_bytes (readable : Bool) (file : Option (List UInt8)) :
    readPaymentInfo (fileCodec order) readable (file.map .bytes) =
      readPaymentFile readStorage (if readable then file else none) := by
  cases readable with
  | false => rfl
  | true =>
      cases file with
      | none => rfl
      | some file =>
          show (decodeStorage (.bytes file)).getD ∅ = readPaymentFile readStorage (some file)
          rw [decodeStorage, readPaymentFile]
          cases readStorage.run file <;> rfl

/-- A file whose newest write has succeeded holds bytes of the records in memory: they are
    what a start reads, and a file that was cut short reads as empty. -/
def ReadsBack (g : Guarded (Std.ExtTreeMap Bytes32 PaymentInfo) Stored PaymentWrite.TaskId) :
    Prop :=
  LastSucceeded g.file → g.mem.size ≤ maxRecords → ∃ file, content g.file = some (.bytes file) ∧
    readPaymentFile readStorage (some file) = g.mem ∧
    ∀ cut, cut <+: file → cut ≠ file → readPaymentFile readStorage (some cut) = ∅

/-- What a coherent store wrote last is what it has in memory. -/
theorem readsBack_of_coherent
    {g : Guarded (Std.ExtTreeMap Bytes32 PaymentInfo) Stored PaymentWrite.TaskId}
    (hg : Coherent (fileCodec order) g) (hw : ¬ Unwritten g) : ReadsBack g := by
  intro hlast hfits
  have hcontent : content g.file = some (encodeStorage order g.mem) :=
    content_encoded hg hlast hw
  rw [encodeStorage, if_pos hfits] at hcontent
  let m : PaymentMap := ⟨g.mem, order.entries g.mem, order.iterates g.mem, hfits⟩
  exact ⟨_, hcontent, readPaymentFile_written m, fun cut hcut hne =>
    readPaymentFile_truncated m hcut hne⟩

/-- **FILES READ BACK**: at any point of any run, each file whose newest write has
    succeeded reads back as the records in memory. -/
theorem node_files_read_back {inboundFile outboundFile : Option Stored}
    {manager : ChannelManager} {s : Node Stored}
    (hrun : Reach (step (fileEnv order sha256)) anyStep
      (offNode inboundFile outboundFile manager) s) :
    ReadsBack s.inbound ∧ ReadsBack s.outbound := by
  obtain ⟨hin, hout, hinWritten, houtWritten⟩ :=
    node_coherent (reach_refined hrun (offNode_refined inboundFile outboundFile manager))
  exact ⟨readsBack_of_coherent hin hinWritten, readsBack_of_coherent hout houtWritten⟩

/-- The order of the keys. -/
def sortedOrder : IterationOrder := ⟨fun payments => payments.toList, fun _ => .refl _⟩

/-- A first start-up, a payment and an invoice, both written. -/
def writtenRun : List NodeAction :=
  firstBoot ++ ([.send (.sendPayment (invoiceOf 1) none), .settleOutbound 1 true,
    .getInvoice 1000 (some ⟨Vector.replicate 32 2, Vector.replicate 32 0⟩),
    .settleInbound 0 true] : List NodeAction)

/-- One payment and one invoice, each in its file. -/
theorem node_files_read_back_writtenRun :
    ∃ s : Node Stored, Reach (step (fileEnv sortedOrder id)) anyStep (newNode Stored) s ∧
      s.inbound.mem.size = 1 ∧ s.outbound.mem.size = 1 ∧
      (∃ file, content s.inbound.file = some (.bytes file) ∧
        readPaymentFile readInbound (some file) = s.inbound.mem) ∧
      ∃ file, content s.outbound.file = some (.bytes file) ∧
        readPaymentFile readOutbound (some file) = s.outbound.mem := by
  obtain ⟨s, hrun, hcheck⟩ := reach_of_check (newNode Stored) (step (fileEnv sortedOrder id))
    anyStep writtenRun
    (fun s => decide (LastSucceeded s.inbound.file ∧ LastSucceeded s.outbound.file ∧
      s.inbound.mem.size = 1 ∧ s.outbound.mem.size = 1))
    (by decide +kernel)
  obtain ⟨hin, hout, hinSize, houtSize⟩ := of_decide_eq_true hcheck
  obtain ⟨hinRead, houtRead⟩ := node_files_read_back hrun
  have hone : 1 ≤ maxRecords := by decide
  obtain ⟨inFile, hinContent, hinBack, -⟩ := hinRead hin (by rw [hinSize]; exact hone)
  obtain ⟨outFile, houtContent, houtBack, -⟩ := houtRead hout (by rw [houtSize]; exact hone)
  exact ⟨s, hrun, hinSize, houtSize, ⟨inFile, hinContent, hinBack⟩, outFile, houtContent, houtBack⟩

end PaymentFiles
