import Scorer.SyncTimestampProofs

/-! # Words, parts and keys in a text

    Commands are split into words at white space, and a peer is written as a key in
    hexadecimal, alone or before `@` and an address.

    * `splitWhitespace`, `split`, `rsplitOnce`: the functions of `str` that the callers use;
    * `toVec`, `toCompressedPubkey`: `hex_utils`, where `fromSlice` stands for
      `PublicKey::from_slice`;
    * `toCompressedPubkey_iff`: the texts that are read as a compressed key. -/

namespace KeyText

open SyncTimestamp

variable {P : Type} (fromSlice : List UInt8 → Option P)

/-- `str::split_whitespace`. -/
def splitWhitespace (line : String) : List String :=
  ((line.toList.splitOnP isWhitespace).filter fun word => !word.isEmpty).map String.ofList

/-- `str::split` at a character. -/
def split (sep : Char) (text : String) : List String :=
  (text.toList.splitOn sep).map String.ofList

/-- The search from the right, on characters. -/
def rsplitOnceLoop (sep : Char) : List Char → Option (List Char × List Char)
  | [] => none
  | c :: rest =>
      match rsplitOnceLoop sep rest with
      | some (front, back) => some (c :: front, back)
      | none => if c = sep then some ([], rest) else none

/-- `str::rsplit_once` at a character. -/
def rsplitOnce (sep : Char) (text : String) : Option (String × String) :=
  (rsplitOnceLoop sep text.toList).map (Prod.map String.ofList String.ofList)

/-- The bytes of a `&str`. -/
def asBytes (text : String) : List UInt8 := text.toUTF8.data.toList

/-- The value of a digit, in either case. -/
def hexDigit (c : UInt8) : Option UInt8 :=
  if 0x41 ≤ c ∧ c ≤ 0x46 then some (c - 0x41 + 10)
  else if 0x61 ≤ c ∧ c ≤ 0x66 then some (c - 0x61 + 10)
  else if 0x30 ≤ c ∧ c ≤ 0x39 then some (c - 0x30)
  else none

/-- The loop of `to_vec`, with its index, the byte under construction and the bytes
    that are done. -/
def toVecLoop : List UInt8 → Nat → UInt8 → List UInt8 → Option (List UInt8)
  | [], _, _, out => some out
  | c :: rest, idx, b, out =>
      (hexDigit c).bind fun digit =>
        let b := (b <<< 4) ||| digit
        if idx % 2 = 1 then toVecLoop rest (idx + 1) 0 (out ++ [b])
        else toVecLoop rest (idx + 1) b out

/-- `hex_utils::to_vec`. -/
def toVec (hex : String) : Option (List UInt8) :=
  if (asBytes hex).length % 2 = 1 then none else toVecLoop (asBytes hex) 0 0 []

/-- `hex_utils::to_compressed_pubkey`; the slice it takes is the whole text. -/
def toCompressedPubkey (hex : String) : Option P :=
  if (asBytes hex).length ≠ 33 * 2 then none else (toVec hex).bind fromSlice

example : toVec "0aBc" = some [0x0a, 0xbc] := by decide
example : toVec "abc" = none := by decide

/-! ## Splitting -/

section Split

variable {sep : Char} {text : List Char} {front back : String}

/-- The characters of two texts around a separator. -/
theorem toList_join : (front ++ String.singleton sep ++ back).toList =
    front.toList ++ sep :: back.toList := by
  simp

/-- Joining adds one separator to those that are there. -/
theorem count_join : (front ++ String.singleton sep ++ back).toList.count sep =
    front.toList.count sep + (back.toList.count sep + 1) := by
  rw [toList_join, List.count_append, List.count_cons_self]

/-- A text without the separator, as a test of each character. -/
theorem not_sep (h : sep ∉ text) : ∀ c ∈ text, (c == sep) = false := by
  intro c hc
  exact beq_eq_false_iff_ne.mpr fun heq => h (heq ▸ hc)

/-- A text without the separator is its only part. -/
theorem split_one (h : sep ∉ front.toList) : split sep front = [front] := by
  rw [split, List.splitOn, List.splitOnP_eq_singleton (not_sep h), List.map_singleton,
    String.ofList_toList]

/-- The first part ends at the first separator. -/
theorem split_append (h : sep ∉ front.toList) :
    split sep (front ++ String.singleton sep ++ back) = front :: split sep back := by
  have hcut : (front.toList ++ sep :: back.toList).splitOnP (· == sep) =
      front.toList.splitOnP (· == sep) ++ back.toList.splitOnP (· == sep) :=
    List.splitOnP_append_cons _ _ (beq_self_eq_true sep)
  rw [split, split, toList_join, List.splitOn, List.splitOn, hcut,
    List.splitOnP_eq_singleton (not_sep h), List.singleton_append, List.map_cons,
    String.ofList_toList]

/-- A text with a separator is cut at the first one. -/
theorem eq_append_of_mem (h : sep ∈ front.toList) :
    ∃ first rest : String, front = first ++ String.singleton sep ++ rest ∧
      sep ∉ first.toList := by
  obtain ⟨first, rest, htext, hfirst⟩ := List.eq_append_cons_of_mem h
  refine ⟨.ofList first, .ofList rest, ?_, by rwa [String.toList_ofList]⟩
  apply String.ext
  rw [htext, toList_join, String.toList_ofList, String.toList_ofList]

/-- The search fails only where there is no separator. -/
theorem rsplitOnceLoop_eq_none : rsplitOnceLoop sep text = none ↔ sep ∉ text := by
  induction text with
  | nil => exact iff_of_true rfl List.not_mem_nil
  | cons c rest ih =>
      rw [List.mem_cons, not_or, ← ih, rsplitOnceLoop]
      cases rsplitOnceLoop sep rest with
      | some parts => exact iff_of_false (by rintro ⟨⟩) (by rintro ⟨-, ⟨⟩⟩)
      | none =>
          by_cases hc : c = sep
          · exact iff_of_false (by rw [if_pos hc]; rintro ⟨⟩) fun h => h.1 hc.symm
          · exact iff_of_true (if_neg hc) ⟨fun h => hc h.symm, rfl⟩

theorem rsplitOnceLoop_append {back : List Char} (h : sep ∉ back) :
    ∀ front, rsplitOnceLoop sep (front ++ sep :: back) = some (front, back) := by
  intro front
  induction front with
  | nil => rw [List.nil_append, rsplitOnceLoop, rsplitOnceLoop_eq_none.mpr h, if_pos rfl]
  | cons c front ih => rw [List.cons_append, rsplitOnceLoop, ih]

/-- The two parts and the separator are the text. -/
theorem rsplitOnceLoop_text {back : List Char} :
    ∀ {front}, rsplitOnceLoop sep text = some (front, back) →
      text = front ++ sep :: back := by
  induction text with
  | nil =>
      intro front h
      exact nomatch h
  | cons c rest ih =>
      intro front h
      rw [rsplitOnceLoop] at h
      -- a separator further right is the one that is cut at
      cases hrest : rsplitOnceLoop sep rest with
      | some parts =>
          rw [hrest] at h
          obtain ⟨rfl, rfl⟩ := Prod.mk.inj (Option.some.inj h)
          rw [List.cons_append, ← ih hrest]
      | none =>
          simp only [hrest] at h
          by_cases hc : c = sep
          · rw [if_pos hc] at h
            obtain ⟨rfl, rfl⟩ := Prod.mk.inj (Option.some.inj h)
            rw [hc, List.nil_append]
          · rw [if_neg hc] at h
            exact nomatch h

/-- The same for texts: `rsplit_once` cuts at the last separator. -/
theorem rsplitOnce_append (h : sep ∉ back.toList) :
    rsplitOnce sep (front ++ String.singleton sep ++ back) = some (front, back) := by
  rw [rsplitOnce, toList_join, rsplitOnceLoop_append h, Option.map_some, Prod.map_apply,
    String.ofList_toList, String.ofList_toList]

/-- Whatever it cuts is put together again by the separator. -/
theorem rsplitOnce_text {whole : String} (h : rsplitOnce sep whole = some (front, back)) :
    whole = front ++ String.singleton sep ++ back := by
  obtain ⟨⟨front', back'⟩, hloop, hparts⟩ := Option.map_eq_some_iff.mp h
  obtain ⟨rfl, rfl⟩ := Prod.mk.inj hparts
  apply String.ext
  rw [rsplitOnceLoop_text hloop, toList_join, String.toList_ofList, String.toList_ofList]

end Split

/-! ## Bytes of a text -/

section Ascii

variable {text : String}

/-- The bytes of a text are those of its characters in a row. -/
theorem asBytes_eq (text : String) :
    asBytes text = text.toList.flatMap String.utf8EncodeChar := by
  have htext : text.toByteArray = text.toList.utf8Encode := by
    rw [← String.toByteArray_ofList, String.ofList_toList]
  rw [asBytes, String.toUTF8, htext, List.utf8Encode, List.data_toByteArray]

/-- Each byte is one of some character. -/
theorem mem_asBytes {b : UInt8} :
    b ∈ asBytes text ↔ ∃ c ∈ text.toList, b ∈ String.utf8EncodeChar c := by
  rw [asBytes_eq]
  exact List.mem_flatMap

/-- The byte of an ASCII character. -/
def asciiByte (c : Char) : UInt8 := UInt8.ofNat c.toNat

theorem utf8EncodeChar_ascii {c : Char} (h : c.toNat < 128) :
    String.utf8EncodeChar c = [asciiByte c] := by
  have hle : c.val.toNat ≤ 127 := Nat.le_of_lt_succ h
  rw [String.utf8EncodeChar]
  exact if_pos hle

/-- A character beyond ASCII has a byte beyond it. -/
theorem ascii_of_utf8EncodeChar {c : Char} (h : ∀ b ∈ String.utf8EncodeChar c, b < 128) :
    c.toNat < 128 := by
  by_contra hnot
  have hle : ¬ c.val.toNat ≤ 127 := fun hle => hnot (Nat.lt_succ_of_le hle)
  -- the last byte of a longer encoding is a continuation byte
  have hlast : UInt8.ofNat (c.val.toNat % 64 + 128) ∈ String.utf8EncodeChar c := by
    rw [String.utf8EncodeChar]
    simp only [if_neg hle]
    split
    · simp
    · split <;> simp
  have hlt := UInt8.lt_iff_toNat_lt.mp (h _ hlast)
  rw [UInt8.toNat_ofNat_of_lt' (by show _ < 256; omega)] at hlt
  have h128 : (128 : UInt8).toNat = 128 := rfl
  omega

theorem asBytes_ascii (h : ∀ c ∈ text.toList, c.toNat < 128) :
    asBytes text = text.toList.map asciiByte := by
  rw [asBytes_eq]
  generalize text.toList = chars at h
  induction chars with
  | nil => rfl
  | cons c chars ih =>
      obtain ⟨hc, hchars⟩ := List.forall_mem_cons.mp h
      rw [List.flatMap_cons, utf8EncodeChar_ascii hc, ih hchars]
      rfl

/-- A text whose bytes are small is ASCII. -/
theorem ascii_of_asBytes (h : ∀ b ∈ asBytes text, b < 128) :
    ∀ c ∈ text.toList, c.toNat < 128 := by
  intro c hc
  exact ascii_of_utf8EncodeChar fun b hb => h b (mem_asBytes.mpr ⟨c, hc, hb⟩)

end Ascii

/-! ## Keys -/

section Keys

variable {fromSlice} {hex : String} {key : P}

/-- No digit is an `@`, so a text of digits has none. -/
theorem at_notMem_digits (h : ∀ c ∈ asBytes hex, (hexDigit c).isSome) :
    '@' ∉ hex.toList := by
  intro hat
  have hdigit := h 0x40 (mem_asBytes.mpr ⟨'@', hat, by decide⟩)
  exact absurd hdigit (by decide)

/-- The loop reaches its end only over digits. -/
theorem toVecLoop_digits {bytes out : List UInt8} :
    ∀ {idx b out'}, toVecLoop bytes idx b out = some out' →
      ∀ c ∈ bytes, (hexDigit c).isSome := by
  induction bytes generalizing out with
  | nil =>
      intro idx b out' _ c hc
      exact nomatch hc
  | cons c rest ih =>
      intro idx b out' h d hd
      rw [toVecLoop] at h
      obtain ⟨digit, hdigit, h⟩ := Option.bind_eq_some_iff.mp h
      rcases List.mem_cons.mp hd with rfl | hd
      · rw [hdigit]
        rfl
      · by_cases hodd : idx % 2 = 1
        · simp only [hodd, if_true] at h
          exact ih h d hd
        · simp only [hodd, if_false] at h
          exact ih h d hd

/-- What is read as a compressed key: 66 hexadecimal digits whose bytes are a key. -/
theorem toCompressedPubkey_iff :
    toCompressedPubkey fromSlice hex = some key ↔
      (asBytes hex).length = 66 ∧ (∀ c ∈ asBytes hex, (hexDigit c).isSome) ∧
        (toVec hex).bind fromSlice = some key := by
  rw [toCompressedPubkey]
  by_cases hlen : (asBytes hex).length = 66
  · rw [if_neg (not_not.mpr hlen)]
    constructor
    · intro h
      refine ⟨hlen, ?_, h⟩
      obtain ⟨data, hdata, -⟩ := Option.bind_eq_some_iff.mp h
      rw [toVec, if_neg (by omega)] at hdata
      exact toVecLoop_digits hdata
    · exact fun h => h.2.2
  · rw [if_pos hlen]
    constructor
    · intro h
      exact nomatch h
    · exact fun h => absurd h.1 hlen

end Keys

end KeyText
