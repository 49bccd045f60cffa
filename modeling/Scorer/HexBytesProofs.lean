import Scorer.KeyTextProofs

/-! # Bytes in hexadecimal

    Keys, channel ids and signed transactions pass through `hex_utils` as texts.

    * `hexStr` follows the source; `toVecChecked` is `toVec` with arithmetic that aborts
      on an overflow;
    * `toVecLoop_pairs`: the loop reads the digits in pairs;
    * `hex_decoding_exact`: what is read, that it is written back up to the case, and
      that nothing overflows. -/

namespace HexBytes

open KeyText

/-! ## Writing -/

/-- `{:02x}`. -/
def lowerHex2 (v : UInt8) : List Char :=
  let digits := Nat.toDigits 16 v.toNat
  List.replicate (2 - digits.length) '0' ++ digits

/-- `hex_utils::hex_str`. -/
def hexStr (value : List UInt8) : String := String.ofList (value.flatMap lowerHex2)

/-! ## Arithmetic that aborts -/

/-- `u8` subtraction, which panics in a debug build. -/
def checkedSub (a b : UInt8) : Option UInt8 := if b ≤ a then some (a - b) else none

/-- `u8` addition, which does so too. -/
def checkedAdd (a b : UInt8) : Option UInt8 :=
  if a.toNat + b.toNat < 2 ^ 8 then some (a + b) else none

/-- A shift that loses no bit. -/
def checkedShl (a b : UInt8) : Option UInt8 :=
  if a.toNat * 2 ^ b.toNat < 2 ^ 8 then some (a <<< b) else none

/-- The arms of the `match`: `some none` returns `None`. -/
def hexDigitChecked (c : UInt8) : Option (Option UInt8) :=
  if 0x41 ≤ c ∧ c ≤ 0x46 then
    (checkedSub c 0x41).bind fun digit => (checkedAdd digit 10).map some
  else if 0x61 ≤ c ∧ c ≤ 0x66 then
    (checkedSub c 0x61).bind fun digit => (checkedAdd digit 10).map some
  else if 0x30 ≤ c ∧ c ≤ 0x39 then (checkedSub c 0x30).map some
  else some none

/-- The loop of `to_vec`; `none` is an abort. -/
def toVecLoopChecked :
    List UInt8 → Nat → UInt8 → List UInt8 → Option (Option (List UInt8))
  | [], _, _, out => some (some out)
  | c :: rest, idx, b, out =>
      (checkedShl b 4).bind fun shifted => (hexDigitChecked c).bind fun
        | none => some none
        | some digit =>
            let b := shifted ||| digit
            if idx % 2 = 1 then toVecLoopChecked rest (idx + 1) 0 (out ++ [b])
            else toVecLoopChecked rest (idx + 1) b out

/-- `to_vec` with these; `none` on the outside is a panic. -/
def toVecChecked (hex : String) : Option (Option (List UInt8)) :=
  if (asBytes hex).length % 2 = 1 then some none
  else toVecLoopChecked (asBytes hex) 0 0 []

/-! ## Digits -/

/-- The digits `0` to `9`, `A` to `F` and `a` to `f`. -/
def IsHexDigit (c : UInt8) : Prop :=
  0x30 ≤ c ∧ c ≤ 0x39 ∨ 0x41 ≤ c ∧ c ≤ 0x46 ∨ 0x61 ≤ c ∧ c ≤ 0x66

instance isHexDigitDecidable (c : UInt8) : Decidable (IsHexDigit c) :=
  inferInstanceAs (Decidable (_ ∨ _))

/-- `A` to `F` lowered. -/
def lowered (text : String) : String :=
  String.ofList (text.toList.map fun c => if 'A' ≤ c ∧ c ≤ 'F' then c.toLower else c)

/-- The character of an ASCII byte, with `A` to `F` lowered. -/
def loweredChar (c : UInt8) : Char :=
  if 0x41 ≤ c ∧ c ≤ 0x46 then (Char.ofNat c.toNat).toLower else Char.ofNat c.toNat

/-- What a byte is as a digit. -/
theorem hexDigit_table : ∀ c : UInt8,
    ((hexDigit c).isSome ↔ IsHexDigit c) ∧ (IsHexDigit c → c < 128) ∧
      hexDigitChecked c = some (hexDigit c) ∧
      (hexDigit c).all fun digit =>
        digit < 16 ∧ Nat.digitChar digit.toNat = loweredChar c := by
  decide +kernel

/-- The digits are those of the three ranges of the `match`. -/
theorem hexDigit_isSome_iff (c : UInt8) : (hexDigit c).isSome ↔ IsHexDigit c :=
  (hexDigit_table c).1

theorem isHexDigit_ascii (c : UInt8) : IsHexDigit c → c < 128 :=
  (hexDigit_table c).2.1

/-- The arithmetic of a digit stays within a byte. -/
theorem hexDigitChecked_eq (c : UInt8) : hexDigitChecked c = some (hexDigit c) :=
  (hexDigit_table c).2.2.1

/-- A digit has a value below 16, whose lower-case text it is. -/
theorem hexDigit_spec {c digit : UInt8} (h : hexDigit c = some digit) :
    digit < 16 ∧ Nat.digitChar digit.toNat = loweredChar c := by
  have hc := (hexDigit_table c).2.2.2
  rw [h] at hc
  exact of_decide_eq_true hc

theorem hexDigit_lt {c digit : UInt8} (h : hexDigit c = some digit) : digit < 16 :=
  (hexDigit_spec h).1

/-- The characters that a byte is written as. -/
theorem lowerHex2_table : ∀ v : UInt8,
    lowerHex2 v = [Nat.digitChar (v.toNat / 16), Nat.digitChar (v.toNat % 16)] ∧
      hexDigit (asciiByte (Nat.digitChar (v.toNat / 16))) = some (v >>> 4) ∧
      hexDigit (asciiByte (Nat.digitChar (v.toNat % 16))) = some (v &&& 15) ∧
      (v >>> 4) <<< 4 ||| (v &&& 15) = v ∧ (lowerHex2 v).all fun c => c.toNat < 128 := by
  decide +kernel

/-- A byte is written as the characters of its two digits. -/
theorem lowerHex2_pair {c d high low : UInt8} (hc : hexDigit c = some high)
    (hd : hexDigit d = some low) :
    lowerHex2 (high <<< 4 ||| low) = [loweredChar c, loweredChar d] := by
  obtain ⟨hlt, hhighChar⟩ := hexDigit_spec hc
  obtain ⟨hlt', hlowChar⟩ := hexDigit_spec hd
  have hhigh : high.toNat < 16 := UInt8.lt_iff_toNat_lt.mp hlt
  have hlow : low.toNat < 16 := UInt8.lt_iff_toNat_lt.mp hlt'
  have hjoin : (high <<< 4 ||| low).toNat = high.toNat * 16 + low.toNat := by
    have hshift : (high <<< 4).toNat = high.toNat <<< 4 := by
      rw [UInt8.toNat_shiftLeft, Nat.mod_eq_of_lt]
      · rfl
      · show high.toNat <<< 4 < 256
        rw [Nat.shiftLeft_eq]
        exact Nat.mul_lt_mul_of_pos_right hhigh (by decide)
    rw [UInt8.toNat_or, hshift, ← Nat.shiftLeft_add_eq_or_of_lt hlow, Nat.shiftLeft_eq]
  have hdiv : (high.toNat * 16 + low.toNat) / 16 = high.toNat := by
    rw [Nat.mul_comm, Nat.mul_add_div (by decide), Nat.div_eq_of_lt hlow, Nat.add_zero]
  rw [(lowerHex2_table _).1, hjoin, hdiv, Nat.mul_add_mod_of_lt hlow, hhighChar, hlowChar]

/-- The digits that a byte is written as. -/
theorem lowerHex2_digits (v : UInt8) :
    (lowerHex2 v).map asciiByte =
        [asciiByte (Nat.digitChar (v.toNat / 16)), asciiByte (Nat.digitChar (v.toNat % 16))] ∧
      hexDigit (asciiByte (Nat.digitChar (v.toNat / 16))) = some (v >>> 4) ∧
      hexDigit (asciiByte (Nat.digitChar (v.toNat % 16))) = some (v &&& 15) ∧
      (v >>> 4) <<< 4 ||| (v &&& 15) = v := by
  obtain ⟨hchars, hhigh, hlow, hjoin, -⟩ := lowerHex2_table v
  refine ⟨?_, hhigh, hlow, hjoin⟩
  rw [hchars]
  rfl

theorem lowerHex2_ascii {v : UInt8} : ∀ c ∈ lowerHex2 v, c.toNat < 128 := by
  intro c hc
  exact of_decide_eq_true (List.all_eq_true.mp (lowerHex2_table v).2.2.2.2 c hc)

theorem length_lowerHex2 (v : List UInt8) : (v.flatMap lowerHex2).length = 2 * v.length := by
  induction v with
  | nil => rfl
  | cons b v ih =>
      have hlen : (lowerHex2 b).length = 2 := by
        rw [← List.length_map (f := asciiByte), (lowerHex2_digits b).1]
        rfl
      rw [List.flatMap_cons, List.length_append, hlen, ih, List.length_cons]
      omega

/-! ## Pairs -/

/-- The digits two by two. -/
def readPairs : List UInt8 → Option (List UInt8)
  | c :: d :: rest =>
      (hexDigit c).bind fun high => (hexDigit d).bind fun low =>
        (readPairs rest).map ((high <<< 4 ||| low) :: ·)
  | _ => some []

/-- The loop at an even index. -/
theorem toVecLoop_pairs {bytes : List UInt8} (heven : bytes.length % 2 = 0) :
    ∀ {idx out}, idx % 2 = 0 →
      toVecLoop bytes idx 0 out = (readPairs bytes).map (out ++ ·) := by
  induction bytes using readPairs.induct with
  | case1 c d rest ih =>
      intro idx out hidx
      have hrest : rest.length % 2 = 0 := by
        rw [List.length_cons, List.length_cons] at heven
        omega
      rw [toVecLoop, readPairs]
      cases hexDigit c with
      | none => rfl
      | some high =>
          have hodd : (idx + 1) % 2 = 1 := by omega
          have hzero : ((0 : UInt8) <<< 4) ||| high = high := by simp
          simp only [Option.bind_some, hidx, hzero]
          rw [if_neg (by decide), toVecLoop]
          cases hexDigit d with
          | none => rfl
          | some low =>
              simp only [Option.bind_some, hodd, if_true]
              rw [ih hrest (by omega), Option.map_map]
              congr 1
              funext more
              simp
  | case2 bytes hshort =>
      intro idx out hidx
      cases bytes with
      | nil => simp [toVecLoop, readPairs]
      | cons c rest =>
          cases rest with
          | nil => exact absurd heven (by simp)
          | cons d rest => exact absurd rfl (hshort c d rest)

/-- The loop with its buffer reads pair by pair. -/
theorem toVec_eq_pairs {hex : String} (heven : (asBytes hex).length % 2 = 0) :
    toVec hex = readPairs (asBytes hex) := by
  rw [toVec, if_neg (by omega), toVecLoop_pairs heven rfl]
  simp

/-- The pairs are read if all their bytes are digits. -/
theorem readPairs_isSome {bytes : List UInt8} (heven : bytes.length % 2 = 0) :
    (readPairs bytes).isSome ↔ ∀ c ∈ bytes, IsHexDigit c := by
  induction bytes using readPairs.induct with
  | case1 c d rest ih =>
      have hrest : rest.length % 2 = 0 := by
        rw [List.length_cons, List.length_cons] at heven
        omega
      rw [readPairs, List.forall_mem_cons, List.forall_mem_cons, ← ih hrest,
        ← hexDigit_isSome_iff, ← hexDigit_isSome_iff]
      cases hexDigit c <;> cases hexDigit d <;> simp
  | case2 bytes hshort =>
      match bytes with
      | [] => simp [readPairs]
      | [c] => exact absurd heven (by simp)
      | c :: d :: rest => exact absurd rfl (hshort c d rest)

/-- What is read is written as the digits, lowered. -/
theorem lowerHex2_readPairs {bytes : List UInt8} (heven : bytes.length % 2 = 0) :
    ∀ {v}, readPairs bytes = some v → v.flatMap lowerHex2 = bytes.map loweredChar := by
  induction bytes using readPairs.induct with
  | case1 c d rest ih =>
      intro v h
      have hrest : rest.length % 2 = 0 := by
        rw [List.length_cons, List.length_cons] at heven
        omega
      rw [readPairs] at h
      obtain ⟨high, hhigh, h⟩ := Option.bind_eq_some_iff.mp h
      obtain ⟨low, hlow, h⟩ := Option.bind_eq_some_iff.mp h
      obtain ⟨tail, htail, rfl⟩ := Option.map_eq_some_iff.mp h
      rw [List.flatMap_cons, lowerHex2_pair hhigh hlow, ih hrest htail]
      rfl
  | case2 bytes hshort =>
      intro v h
      match bytes with
      | [] =>
          obtain rfl := Option.some.inj h
          rfl
      | [c] => exact absurd heven (by simp)
      | c :: d :: rest => exact absurd rfl (hshort c d rest)

theorem readPairs_lowerHex2 (v : List UInt8) :
    readPairs ((v.flatMap lowerHex2).map asciiByte) = some v := by
  induction v with
  | nil => rfl
  | cons b v ih =>
      obtain ⟨hchars, hhigh, hlow, hb⟩ := lowerHex2_digits b
      rw [List.flatMap_cons, List.map_append, hchars, List.cons_append, List.cons_append,
        List.nil_append, readPairs, hhigh, hlow, ih]
      simp only [Option.bind_some, Option.map_some, hb]

/-! ## No overflow -/

/-- Before a digit the byte under construction is a single digit, or nothing. -/
theorem toVecLoop_checked {bytes : List UInt8} :
    ∀ {idx b out}, b < 16 → (idx % 2 = 0 → b = 0) →
      toVecLoopChecked bytes idx b out = some (toVecLoop bytes idx b out) := by
  induction bytes with
  | nil =>
      intro idx b out _ _
      rfl
  | cons c rest ih =>
      intro idx b out hb hidx
      -- the shift amount is in range, so the checked operation does not fail
      have hshift : checkedShl b 4 = some (b <<< 4) := by
        have hlt := UInt8.lt_iff_toNat_lt.mp hb
        have h16 : (16 : UInt8).toNat = 16 := rfl
        have h4 : (4 : UInt8).toNat = 4 := rfl
        rw [checkedShl, if_pos (by rw [h4]; omega)]
      rw [toVecLoopChecked, hshift, hexDigitChecked_eq, toVecLoop]
      cases hdigit : hexDigit c with
      | none => rfl
      | some digit =>
          simp only [Option.bind_some]
          by_cases hodd : idx % 2 = 1
          · rw [if_pos hodd, if_pos hodd]
            exact ih (by decide) fun _ => rfl
          · rw [if_neg hodd, if_neg hodd]
            obtain rfl := hidx (by omega)
            have hzero : ((0 : UInt8) <<< 4) ||| digit = digit := by simp
            rw [hzero]
            exact ih (hexDigit_lt hdigit) fun heven => absurd heven (by omega)

/-- **NO PANIC**: with checked arithmetic the function is the same. -/
theorem toVec_checked (hex : String) : toVecChecked hex = some (toVec hex) := by
  rw [toVecChecked, toVec]
  split
  · rfl
  · exact toVecLoop_checked (by decide) fun _ => rfl

/-! ## Texts -/

/-- Lower case on bytes is lower case on characters. -/
theorem loweredChar_asciiByte {c : Char} (h : c.toNat < 128) :
    loweredChar (asciiByte c) = if 'A' ≤ c ∧ c ≤ 'F' then c.toLower else c := by
  have hall : ∀ n < 128, loweredChar (asciiByte (Char.ofNat n)) =
      if 'A' ≤ Char.ofNat n ∧ Char.ofNat n ≤ 'F' then (Char.ofNat n).toLower
      else Char.ofNat n := by decide +kernel
  have hc := hall c.toNat h
  rwa [Char.ofNat_toNat] at hc

/-- A text is decoded if its length is even and all of it is digits. -/
theorem toVec_isSome {hex : String} :
    (toVec hex).isSome ↔
      (asBytes hex).length % 2 = 0 ∧ ∀ c ∈ asBytes hex, IsHexDigit c := by
  by_cases heven : (asBytes hex).length % 2 = 0
  · rw [toVec_eq_pairs heven, readPairs_isSome heven, and_iff_right heven]
  · rw [toVec, if_pos (by omega)]
    exact iff_of_false (by rintro ⟨⟩) fun h => heven h.1

/-- Encoding what was decoded gives the text in lower case. -/
theorem hexStr_toVec {hex : String} {v : List UInt8} (h : toVec hex = some v) :
    hexStr v = lowered hex := by
  obtain ⟨heven, hdigits⟩ := toVec_isSome.mp (Option.isSome_iff_exists.mpr ⟨v, h⟩)
  have hascii := ascii_of_asBytes fun b hb => isHexDigit_ascii b (hdigits b hb)
  rw [toVec_eq_pairs heven] at h
  rw [hexStr, lowered, lowerHex2_readPairs heven h, asBytes_ascii hascii, List.map_map]
  congr 1
  exact List.map_congr_left fun c hc => loweredChar_asciiByte (hascii c hc)

/-- An encoding has a byte for each character. -/
theorem asBytes_hexStr (v : List UInt8) :
    asBytes (hexStr v) = (v.flatMap lowerHex2).map asciiByte := by
  rw [asBytes_ascii, hexStr, String.toList_ofList]
  intro c hc
  rw [hexStr, String.toList_ofList] at hc
  obtain ⟨b, -, hb⟩ := List.mem_flatMap.mp hc
  exact lowerHex2_ascii c hb

/-- Decoding what was encoded gives the bytes. -/
theorem toVec_hexStr (v : List UInt8) : toVec (hexStr v) = some v := by
  have hread := readPairs_lowerHex2 v
  rw [← asBytes_hexStr] at hread
  have heven : (asBytes (hexStr v)).length % 2 = 0 := by
    rw [asBytes_hexStr, List.length_map, length_lowerHex2]
    omega
  rw [toVec_eq_pairs heven, hread]

/-- **HEX DECODING IS EXACT**: the texts that are read are the even numbers of digits,
    what is read is written as the same text up to the case, what is written is read
    back, and no step overflows. -/
theorem hex_decoding_exact :
    (∀ s, (∃ v, toVec s = some v) ↔
      (asBytes s).length % 2 = 0 ∧ ∀ c ∈ asBytes s, IsHexDigit c) ∧
    (∀ s v, toVec s = some v → hexStr v = lowered s) ∧
    (∀ v, toVec (hexStr v) = some v) ∧
    ∀ s, toVecChecked s = some (toVec s) :=
  ⟨fun _ => Option.isSome_iff_exists.symm.trans toVec_isSome, fun _ _ => hexStr_toVec,
    toVec_hexStr, toVec_checked⟩

end HexBytes
