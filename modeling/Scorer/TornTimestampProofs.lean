import Scorer.KeyTextProofs

/-! # A save of the timestamp that is interrupted

    `save_last_sync_timestamp` creates the file anew, which empties it, and writes the
    text into it; an interruption leaves any beginning of the bytes.

    * `saveLastSyncTimestamp` is the file after the calls of a save;
    * `fileText` is what `read_to_string` makes of the bytes;
    * `torn_write_safe`: the value that a sync starts from, after a save, after a part of
      one and with a file that cannot be read. -/

namespace TornTimestamp

open SyncTimestamp KeyText

/-- `tokio::fs::read_to_string`. -/
def fileText (content : List UInt8) : FileText :=
  match String.fromUTF8? content.toByteArray with
  | some text => .utf8 text.toList
  | none => .notUtf8

/-- `timestamp.to_string().as_bytes()`. -/
def savedBytes (timestamp : UInt32) : List UInt8 := asBytes (String.ofList (printed timestamp))

/-- What the calls of a save come to; `writeFails` is the number of bytes that were
    written before the error. -/
structure SaveCalls where
  createFails : Bool
  writeFails  : Option Nat
  syncFails   : Bool
  deriving DecidableEq, Repr

/-- `save_last_sync_timestamp`: the file, and whether `Ok` is returned. -/
def saveLastSyncTimestamp (calls : SaveCalls) (timestamp : UInt32)
    (file : Option (List UInt8)) : Option (List UInt8) × Bool :=
  if calls.createFails then (file, false)
  else
    match calls.writeFails with
    | some n => (some ((savedBytes timestamp).take n), false)
    | none => (some (savedBytes timestamp), !calls.syncFails)

/-! ## Bytes of digits -/

/-- The bytes of a text are read as that text. -/
theorem fileText_asBytes (text : String) : fileText (asBytes text) = .utf8 text.toList := by
  have hbytes : (asBytes text).toByteArray = text.toByteArray := by
    rw [asBytes, String.toUTF8]
    exact ByteArray.ext (by rw [List.data_toByteArray, Array.toArray_toList])
  have hread : String.fromUTF8? text.toByteArray = some text := dif_pos text.isValidUTF8
  rw [fileText, hbytes, hread]

theorem printed_ascii (timestamp : UInt32) : ∀ c ∈ printed timestamp, c.toNat < 128 := by
  intro c hc
  have hdigit := toDigits_isDigit timestamp.toNat c hc
  rw [Char.isDigit, Bool.and_eq_true, decide_eq_true_eq, decide_eq_true_eq] at hdigit
  have hle : c.toNat ≤ 57 := hdigit.2
  omega

/-- The beginnings of the bytes are those of the characters. -/
theorem take_savedBytes (timestamp : UInt32) (n : Nat) :
    (savedBytes timestamp).take n = asBytes (String.ofList ((printed timestamp).take n)) := by
  have hascii := printed_ascii timestamp
  rw [savedBytes, asBytes_ascii (by rwa [String.toList_ofList]), asBytes_ascii,
    String.toList_ofList, String.toList_ofList, List.map_take]
  rw [String.toList_ofList]
  exact fun c hc => hascii c (List.mem_of_mem_take hc)

theorem fileText_take (timestamp : UInt32) (n : Nat) :
    fileText ((savedBytes timestamp).take n) = torn timestamp n := by
  rw [take_savedBytes, fileText_asBytes, String.toList_ofList, torn]

theorem fileText_savedBytes (timestamp : UInt32) :
    fileText (savedBytes timestamp) = .utf8 (printed timestamp) := by
  rw [savedBytes, fileText_asBytes, String.toList_ofList]

/-! ## The value that is used -/

/-- A save that succeeds has written every byte. -/
theorem save_completed {calls : SaveCalls} {timestamp : UInt32} {file : Option (List UInt8)}
    (h : (saveLastSyncTimestamp calls timestamp file).2 = true) :
    (saveLastSyncTimestamp calls timestamp file).1 = some (savedBytes timestamp) := by
  rw [saveLastSyncTimestamp] at h ⊢
  split at h
  · cases h
  · rename_i hcreate
    rw [if_neg hcreate]
    cases hwrite : calls.writeFails with
    | some n =>
        rw [hwrite] at h
        cases h
    | none => rfl

/-- A save that fails or is interrupted leaves the file alone, or a beginning of the
    bytes in it. -/
theorem save_leaves (calls : SaveCalls) (timestamp : UInt32) (file : Option (List UInt8)) :
    (saveLastSyncTimestamp calls timestamp file).1 = file ∨
      ∃ written, (saveLastSyncTimestamp calls timestamp file).1 = some written ∧
        written <+: savedBytes timestamp := by
  rw [saveLastSyncTimestamp]
  by_cases hcreate : calls.createFails = true
  · rw [if_pos hcreate]
    exact .inl rfl
  · rw [if_neg hcreate]
    cases calls.writeFails with
    | some n => exact .inr ⟨_, rfl, List.take_prefix n _⟩
    | none => exact .inr ⟨_, rfl, List.prefix_rfl⟩

/-- What is not UTF-8, or not a `u32`, counts as no timestamp. -/
theorem lastSync_rejected {content : List UInt8} (readFails : Bool)
    (h : fileText content = .notUtf8 ∨
      ∃ chars, fileText content = .utf8 chars ∧ parseU32 (trim chars) = none) :
    lastSync readFails (some (fileText content)) = 0 := by
  rcases h with hnot | ⟨chars, htext, hparse⟩
  · rw [hnot]
    rfl
  · cases readFails with
    | true =>
        rw [htext]
        rfl
    | false =>
        rw [htext, lastSync, loadLastSyncTimestamp, hparse]
        rfl

/-- **A TORN WRITE IS SAFE**: after a save the timestamp is used; any other save leaves
    the file as it was or a beginning of the bytes, and after a part of them no timestamp
    is used that is larger; and 0 for a file that is not a number. -/
theorem torn_write_safe (timestamp : UInt32) :
    (∀ calls file, (saveLastSyncTimestamp calls timestamp file).2 = true →
      lastSync false ((saveLastSyncTimestamp calls timestamp file).1.map fileText) =
        timestamp) ∧
    (∀ calls file, (saveLastSyncTimestamp calls timestamp file).1 = file ∨
      ∃ written, (saveLastSyncTimestamp calls timestamp file).1 = some written ∧
        written <+: savedBytes timestamp) ∧
    (∀ readFails written, written <+: savedBytes timestamp → written ≠ savedBytes timestamp →
      lastSync readFails (some (fileText written)) ≤ timestamp) ∧
    ∀ readFails content, (fileText content = .notUtf8 ∨
        ∃ chars, fileText content = .utf8 chars ∧ parseU32 (trim chars) = none) →
      lastSync readFails (some (fileText content)) = 0 := by
  refine ⟨?_, ?_, ?_, ?_⟩
  · intro calls file hsaved
    rw [save_completed hsaved, Option.map_some, fileText_savedBytes]
    exact lastSync_printed timestamp
  · exact fun calls file => save_leaves calls timestamp file
  · intro readFails written hprefix _
    rw [List.prefix_iff_eq_take.mp hprefix, fileText_take]
    exact lastSync_torn readFails timestamp _
  · intro readFails content
    exact lastSync_rejected readFails

/-- A save that completes, one that is cut short after two of ten digits, and a file
    with a byte that begins no character. -/
theorem torn_write_safe_twoDigits :
    lastSync false ((saveLastSyncTimestamp ⟨false, none, false⟩ 1700000000
        (some [0x39])).1.map fileText) = 1700000000 ∧
      lastSync false ((saveLastSyncTimestamp ⟨false, some 2, false⟩ 1700000000
        (some [0x39])).1.map fileText) ≤ 1700000000 ∧
      lastSync false (some (fileText [0xFF])) = 0 := by
  obtain ⟨hsaved, -, hcut, hother⟩ := torn_write_safe 1700000000
  refine ⟨hsaved _ _ rfl, ?_, hother false _ (.inl (by decide +kernel))⟩
  exact hcut false _ (List.take_prefix 2 _) (by decide +kernel)

end TornTimestamp
