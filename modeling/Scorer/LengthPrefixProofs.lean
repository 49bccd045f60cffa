import Scorer.ByteReaderProofs
import Std.Data.ExtTreeMap

/-! # Length prefixes

    `BigSize` numbers, optional values behind their length, and maps behind the
    number of their entries.  Each has a lemma that its reader is sound and one that
    it reads back what was written.  The entries of a map are written in the order
    in which the map happens to be iterated; the reader refuses a key that comes
    twice. -/

namespace LengthPrefix

open ByteReader

variable {α : Type}

/-! ## Numbers -/

/-- `BigSize::write`: one, three, five or nine bytes. -/
def writeBigSize (n : Nat) : List UInt8 :=
  if n ≤ 0xFC then toBytes 1 n
  else if n ≤ 0xFFFF then toBytes 1 0xFD ++ toBytes 2 n
  else if n ≤ 0xFFFFFFFF then toBytes 1 0xFE ++ toBytes 4 n
  else toBytes 1 0xFF ++ toBytes 8 n

/-- A number that no shorter form would hold. -/
def readMinimal (width least : Nat) : Reader Nat := do
  let x ← readUInt width
  if x < least then fail .invalidValue else pure x

/-- `BigSize::read`, which refuses a number in more bytes than it needs. -/
def readBigSize : Reader Nat := do
  let n ← readUInt 1
  if n = 0xFF then readMinimal 8 0x100000000
  else if n = 0xFE then readMinimal 4 0x10000
  else if n = 0xFD then readMinimal 2 0xFD
  else pure n

theorem readMinimal_sound (width least : Nat) : Sound (readMinimal width least) :=
  sound_bind (readUInt_sound width) fun _ => sound_ite (sound_fail nofun) (sound_pure _)

theorem readMinimal_reads {width least n : Nat} (hlo : least ≤ n) (hhi : n < 256 ^ width) :
    Reads (readMinimal width least) (toBytes width n) n := by
  refine reads_bind_last (readUInt_reads hhi) ?_
  rw [if_neg (by omega)]
  exact reads_pure n

theorem readBigSize_sound : Sound readBigSize :=
  sound_bind (readUInt_sound 1) fun _ =>
    sound_ite (readMinimal_sound _ _)
      (sound_ite (readMinimal_sound _ _) (sound_ite (readMinimal_sound _ _) (sound_pure _)))

theorem readBigSize_reads {n : Nat} (h : n < 2 ^ 64) :
    Reads readBigSize (writeBigSize n) n := by
  rw [writeBigSize]
  by_cases h1 : n ≤ 0xFC
  · rw [if_pos h1]
    refine reads_bind_last (readUInt_reads (by omega)) ?_
    rw [if_neg (by omega), if_neg (by omega), if_neg (by omega)]
    exact reads_pure n
  · rw [if_neg h1]
    by_cases h2 : n ≤ 0xFFFF
    · rw [if_pos h2]
      refine reads_bind (readUInt_reads (by decide)) ?_
      exact readMinimal_reads (by omega) (by omega)
    · rw [if_neg h2]
      by_cases h3 : n ≤ 0xFFFFFFFF
      · rw [if_pos h3]
        refine reads_bind (readUInt_reads (by decide)) ?_
        exact readMinimal_reads (by omega) (by omega)
      · rw [if_neg h3]
        refine reads_bind (readUInt_reads (by decide)) ?_
        exact readMinimal_reads (by omega) (by omega)

theorem writeBigSize_length (n : Nat) : (writeBigSize n).length ≤ 9 := by
  rw [writeBigSize]
  split
  · simp
  · split
    · simp
    · split <;> simp

private theorem readMinimal_length {width least n : Nat} {s rest : List UInt8}
    (h : (readMinimal width least).run s = .ok (n, rest)) : rest.length ≤ s.length := by
  obtain ⟨x, s', hx, hrest⟩ := bind_run_eq_ok h
  have hlen := readUInt_length hx
  split at hrest
  · cases hrest
  · obtain ⟨-, rfl⟩ := Prod.mk.inj (Except.ok.inj hrest)
    omega

/-- A number takes at least a byte. -/
theorem readBigSize_length {n : Nat} {s rest : List UInt8}
    (h : readBigSize.run s = .ok (n, rest)) : rest.length < s.length := by
  obtain ⟨x, s', hx, hrest⟩ := bind_run_eq_ok h
  have hlen := readUInt_length hx
  suffices rest.length ≤ s'.length by omega
  split at hrest
  · exact readMinimal_length hrest
  · split at hrest
    · exact readMinimal_length hrest
    · split at hrest
      · exact readMinimal_length hrest
      · obtain ⟨-, rfl⟩ := Prod.mk.inj (Except.ok.inj hrest)
        exact Nat.le_refl _

/-! ## Optional values -/

/-- `None` is a zero; a value follows its length plus one. -/
def writeOption (write : α → List UInt8) : Option α → List UInt8
  | none => toBytes 1 0
  | some a => writeBigSize ((write a).length + 1) ++ write a

/-- An option is a length, zero for nothing, and then the value. -/
def readOption (read : Reader α) : Reader (Option α) := do
  let len ← readBigSize
  if len = 0 then pure none
  else do
    let out ← withFixedLength (len - 1) read
    pure (some out.1)

theorem writeOption_length {write : α → List UInt8} {n : Nat}
    (h : ∀ a, (write a).length = n) (o : Option α) : (writeOption write o).length ≤ 9 + n := by
  cases o with
  | none =>
      rw [writeOption, toBytes_length]
      omega
  | some a =>
      have hsize := writeBigSize_length ((write a).length + 1)
      rw [writeOption, List.length_append, h a]
      rw [h a] at hsize
      omega

/-- Reading an option is sound if reading the value is. -/
theorem readOption_sound {read : Reader α} (hr : Sound read) : Sound (readOption read) :=
  sound_bind readBigSize_sound fun len =>
    sound_ite (sound_pure none)
      (sound_bind (withFixedLength_sound hr (len - 1)) fun _ => sound_pure _)

/-- An option is read back if its value is, and the value's length fits. -/
theorem readOption_reads {write : α → List UInt8} {read : Reader α} {o : Option α}
    (hr : ∀ a, o = some a → Reads read (write a) a ∧ (write a).length + 1 < 2 ^ 64) :
    Reads (readOption read) (writeOption write o) o := by
  cases o with
  | none =>
      have hzero : Reads readBigSize (writeBigSize 0) 0 := readBigSize_reads (by decide)
      exact reads_bind_last hzero (reads_pure none)
  | some a =>
      obtain ⟨hread, hlen⟩ := hr a rfl
      refine reads_bind (readBigSize_reads hlen) ?_
      rw [if_neg (by omega)]
      have hle : (write a).length ≤ (write a).length + 1 - 1 := by omega
      exact reads_bind_last (withFixedLength_reads hread hle) (reads_pure (some a))

/-! ## Maps -/

/-- `CollectionLength`: two bytes, and eight more from `0xffff` on. -/
def writeCollectionLength (n : Nat) : List UInt8 :=
  if n < 0xFFFF then toBytes 2 n else toBytes 2 0xFFFF ++ toBytes 8 (n - 0xFFFF)

/-- `CollectionLength::read`, where a long one continues in a `u64`. -/
def readCollectionLength : Reader Nat := do
  let val ← readUInt 2
  if val = 0xFFFF then do
    let more ← readUInt 8
    -- `checked_add` on a `u64`
    if more + 0xFFFF < 2 ^ 64 then pure (more + 0xFFFF) else fail .invalidValue
  else pure val

theorem readCollectionLength_sound : Sound readCollectionLength :=
  sound_bind (readUInt_sound 2) fun _ =>
    sound_ite
      (sound_bind (readUInt_sound 8) fun _ => sound_ite (sound_pure _) (sound_fail nofun))
      (sound_pure _)

theorem readCollectionLength_reads {n : Nat} (h : n < 2 ^ 64) :
    Reads readCollectionLength (writeCollectionLength n) n := by
  rw [writeCollectionLength]
  by_cases h1 : n < 0xFFFF
  · rw [if_pos h1]
    refine reads_bind_last (readUInt_reads (by omega)) ?_
    rw [if_neg (by omega)]
    exact reads_pure n
  · rw [if_neg h1]
    refine reads_bind (readUInt_reads (by decide)) ?_
    refine reads_bind_last (readUInt_reads (by omega)) ?_
    rw [if_pos (by omega), Nat.sub_add_cancel (by omega)]
    exact reads_pure n

variable {K V : Type} [Ord K]

/-- A map, its entries in the order of an iteration. -/
def writeMap (writeKey : K → List UInt8) (writeValue : V → List UInt8)
    (entries : List (K × V)) : List UInt8 :=
  writeCollectionLength entries.length ++
    entries.flatMap fun e => writeKey e.1 ++ writeValue e.2

variable [Std.TransOrd K]

/-- The loop over the entries; a key that is there already is an error. -/
def readEntries (readKey : Reader K) (readValue : Reader V) :
    Nat → Std.ExtTreeMap K V → Reader (Std.ExtTreeMap K V)
  | 0, ret => pure ret
  | n + 1, ret => do
      let k ← readKey
      let v ← readValue
      if k ∈ ret then fail .invalidValue
      else readEntries readKey readValue n (ret.insert k v)

/-- A map: its length and its entries. -/
def readMap (readKey : Reader K) (readValue : Reader V) : Reader (Std.ExtTreeMap K V) := do
  let len ← readCollectionLength
  readEntries readKey readValue len ∅

section

variable {readKey : Reader K} {readValue : Reader V} {writeKey : K → List UInt8}
  {writeValue : V → List UInt8}

theorem readEntries_sound (hk : Sound readKey) (hv : Sound readValue) (n : Nat)
    (ret : Std.ExtTreeMap K V) : Sound (readEntries readKey readValue n ret) := by
  induction n generalizing ret with
  | zero => exact sound_pure ret
  | succ n ih =>
      exact sound_bind hk fun k => sound_bind hv fun v =>
        sound_ite (sound_fail nofun) (ih (ret.insert k v))

theorem readMap_sound (hk : Sound readKey) (hv : Sound readValue) :
    Sound (readMap readKey readValue) :=
  sound_bind readCollectionLength_sound fun len => readEntries_sound hk hv len ∅

/-- Entries with keys that are new to `ret` and pairwise different are inserted one
    after the other. -/
theorem readEntries_reads [Std.LawfulEqOrd K] {entries : List (K × V)}
    {ret : Std.ExtTreeMap K V} (hk : ∀ k, Reads readKey (writeKey k) k)
    (hv : ∀ e ∈ entries, Reads readValue (writeValue e.2) e.2)
    (hnew : ∀ e ∈ entries, e.1 ∉ ret) (hkeys : entries.Pairwise fun e e' => e.1 ≠ e'.1) :
    Reads (readEntries readKey readValue entries.length ret)
      (entries.flatMap fun e => writeKey e.1 ++ writeValue e.2) (ret.insertMany entries) := by
  induction entries generalizing ret with
  | nil => exact reads_pure ret
  | cons e rest ih =>
      obtain ⟨hhead, hrest⟩ := List.pairwise_cons.mp hkeys
      rw [List.flatMap_cons, List.append_assoc]
      refine reads_bind (hk e.1) (reads_bind (hv e List.mem_cons_self) ?_)
      rw [if_neg (hnew e List.mem_cons_self), Std.ExtTreeMap.insertMany_cons]
      refine ih (fun e' he' => hv e' (List.mem_cons_of_mem e he')) (fun e' he' => ?_) hrest
      -- a later key is neither in `ret` nor the one just inserted
      rw [Std.ExtTreeMap.mem_insert, not_or]
      exact ⟨fun heq => hhead e' he' (Std.LawfulEqOrd.eq_of_compare heq),
        hnew e' (List.mem_cons_of_mem e he')⟩

/-- Inserting the entries of a map, in any order, gives the map. -/
theorem insertMany_entries [Std.LawfulEqOrd K] {entries : List (K × V)}
    {m : Std.ExtTreeMap K V} (hperm : entries.Perm m.toList) :
    (∅ : Std.ExtTreeMap K V).insertMany entries = m := by
  have hdistinct : entries.Pairwise fun e e' => ¬ compare e.1 e'.1 = .eq :=
    hperm.symm.pairwise Std.ExtTreeMap.distinct_keys_toList
      (fun hne heq => hne (by rw [Std.OrientedCmp.eq_comm]; exact heq))
  classical
  apply Std.ExtTreeMap.ext_getElem?
  intro k
  cases hk : m[k]? with
  | some v =>
      have hmem : (k, v) ∈ entries :=
        hperm.mem_iff.mpr (Std.ExtTreeMap.mem_toList_iff_getElem?_eq_some.mpr hk)
      exact Std.ExtTreeMap.getElem?_insertMany_list_of_mem Std.ReflCmp.compare_self
        hdistinct hmem
  | none =>
      rw [Std.ExtTreeMap.getElem?_insertMany_list_of_contains_eq_false]
      · simp
      · rw [Bool.eq_false_iff]
        intro hin
        obtain ⟨e, he, rfl⟩ := List.mem_map.mp (List.contains_iff_mem.mp hin)
        have hget := Std.ExtTreeMap.mem_toList_iff_getElem?_eq_some.mp (hperm.mem_iff.mp he)
        cases hget.symm.trans hk

/-- **A MAP READ BACK**, whatever the order its entries were written in. -/
theorem readMap_reads [Std.LawfulEqOrd K] {entries : List (K × V)}
    {m : Std.ExtTreeMap K V} (hperm : entries.Perm m.toList)
    (hlen : entries.length < 2 ^ 64) (hk : ∀ k, Reads readKey (writeKey k) k)
    (hv : ∀ e ∈ entries, Reads readValue (writeValue e.2) e.2) :
    Reads (readMap readKey readValue) (writeMap writeKey writeValue entries) m := by
  have hkeys : entries.Pairwise fun e e' => e.1 ≠ e'.1 := by
    refine hperm.symm.pairwise (Std.ExtTreeMap.distinct_keys_toList.imp ?_) Ne.symm
    intro e e' hne heq
    exact hne (by rw [heq]; exact Std.ReflCmp.compare_self)
  have hread : Reads (readEntries readKey readValue entries.length ∅) _ _ :=
    readEntries_reads hk hv (fun e _ => by simp) hkeys
  rw [insertMany_entries hperm] at hread
  exact reads_bind (readCollectionLength_reads hlen) hread

end

end LengthPrefix
