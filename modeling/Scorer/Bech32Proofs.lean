import Mathlib.Data.List.DropRight
import Scorer.ShiftRegisterProofs

/-! # Bech32 and Bech32m

    A text is a human-readable part, the last `1` of the text, and symbols of five
    bits, the last six of which are check symbols.  The two variants differ in the
    constant that the check has to come to.  No bound is put on the whole length.

    * `encode` and `decode`, as the two formats are specified;
    * `decode_eq_some`: a text is decoded exactly if it is in one case and is, in
      lower case, the encoding of the result. -/

namespace Bech32

open ShiftRegister

/-- The two checksums of the format. -/
inductive Variant where
  | bech32
  | bech32m
  deriving DecidableEq, Repr

/-- What the check comes to. -/
def constant : Variant → BitVec 30
  | .bech32 => 1
  | .bech32m => 0x2bc830a3

/-- The alphabet of the data part, by value. -/
def charset : List Char :=
  ['q', 'p', 'z', 'r', 'y', '9', 'x', '8', 'g', 'f', '2', 't', 'v', 'd', 'w', '0',
   's', '3', 'j', 'n', '5', '4', 'k', 'h', 'c', 'e', '6', 'm', 'u', 'a', '7', 'l']

/-- The generator polynomial, a word for each bit of the overflow. -/
def generator : List (BitVec 30) :=
  [0x3b6a57b2, 0x26508e6d, 0x1ea119fa, 0x3d4233dd, 0x2a1462b3]

/-- The generators of the bits shifted out. -/
def feedback (b : BitVec 30) : BitVec 30 :=
  generator.zipIdx.foldl (fun chk g => if b.getLsbD g.2 then chk ^^^ g.1 else chk) 0

/-- The remainder, computed in a shift register. -/
def polymod (values : List (BitVec 5)) : BitVec 30 := run feedback 1 values

/-- The human-readable part as it goes into the check. -/
def hrpExpand (hrp : List Char) : List (BitVec 5) :=
  hrp.map (fun c => BitVec.ofNat 5 (c.toNat >>> 5)) ++
    0 :: hrp.map (fun c => BitVec.ofNat 5 c.toNat)

/-- 1 to 83 printable characters. -/
def validHrp (hrp : List Char) : Bool :=
  1 ≤ hrp.length && hrp.length ≤ 83 && hrp.all fun c => 33 ≤ c.toNat && c.toNat ≤ 126

/-- The character of five bits. -/
def char (x : BitVec 5) : Char := charset.getD x.toNat 'q'

/-- The five bits of a character, where it is one of the alphabet. -/
def symbol (c : Char) : Option (BitVec 5) := (charset.idxOf? c).map (BitVec.ofNat 5)

/-- The six symbols that bring the remainder to the constant of the variant. -/
def checksum (v : Variant) (hrp : List Char) (data : List (BitVec 5)) : List (BitVec 5) :=
  unpack 5 6 (constant v ^^^ polymod (hrpExpand hrp ++ data ++ zeros 5 6))

/-- The text of the data under a human-readable part. -/
def encode (v : Variant) (hrp : String) (data : List (BitVec 5)) : String :=
  .ofList (hrp.toList ++ '1' :: (data ++ checksum v hrp.toList data).map char)

/-- Which variant a remainder belongs to. -/
def variantOf (chk : BitVec 30) : Option Variant :=
  if chk = constant .bech32 then some .bech32
  else if chk = constant .bech32m then some .bech32m
  else none

/-- A text in both cases is refused. -/
def mixedCase (text : List Char) : Bool := text.any Char.isLower && text.any Char.isUpper

/-- A text in lower case. -/
def lower (s : String) : String := .ofList (s.toList.map Char.toLower)

/-- The human-readable part, the data and the variant of a text. -/
def decode (s : String) : Option (String × List (BitVec 5) × Variant) :=
  if mixedCase s.toList then none
  else
    let text := s.toList.map Char.toLower
    -- without a separator the first part is empty
    let hrp := (text.rdropWhile (· ≠ '1')).dropLast
    if validHrp hrp then
      match (text.rtakeWhile (· ≠ '1')).mapM symbol with
      | none => none
      | some values =>
          if 6 ≤ values.length then
            (variantOf (polymod (hrpExpand hrp ++ values))).map fun v =>
              (.ofList hrp, values.take (values.length - 6), v)
          else none
    else none

/-! ## Characters -/

/-- Each symbol is read back from its character. -/
theorem symbol_char : ∀ x : BitVec 5, symbol (char x) = some x := by decide

/-- The separator is no character of the alphabet. -/
theorem char_ne_separator : ∀ x : BitVec 5, char x ≠ '1' := by decide

/-- The alphabet is in lower case. -/
theorem isUpper_char : ∀ x : BitVec 5, (char x).isUpper = false := by decide

theorem char_of_symbol {c : Char} {x : BitVec 5} (h : symbol c = some x) : c = char x := by
  rw [symbol, Option.map_eq_some_iff] at h
  obtain ⟨i, hi, rfl⟩ := h
  obtain ⟨hlt, hget, -⟩ := List.idxOf?_eq_some_iff.mp hi
  have hmod : (BitVec.ofNat 5 i).toNat = i := Nat.mod_eq_of_lt hlt
  rw [char, hmod, List.getD_eq_getElem?_getD, List.getElem?_eq_getElem hlt, hget,
    Option.getD_some]

/-- A data part is read exactly as the symbols that were written. -/
theorem mapM_symbol {text : List Char} {values : List (BitVec 5)} :
    text.mapM symbol = some values ↔ text = values.map char := by
  induction text generalizing values with
  | nil =>
      rw [List.mapM_nil]
      constructor
      · intro h
        obtain rfl := Option.some.inj h
        rfl
      · intro h
        rw [List.map_eq_nil_iff.mp h.symm]
        rfl
  | cons c text ih =>
      rw [List.mapM_cons]
      constructor
      · intro h
        obtain ⟨x, hx, h⟩ := Option.bind_eq_some_iff.mp h
        obtain ⟨xs, hxs, h⟩ := Option.bind_eq_some_iff.mp h
        obtain rfl := Option.some.inj h
        rw [List.map_cons, ← char_of_symbol hx, ih.mp hxs]
      · intro h
        cases values with
        | nil => cases h
        | cons x xs =>
            obtain ⟨rfl, htext⟩ := List.cons.inj h
            rw [symbol_char, ih.mpr htext]
            rfl

/-! ## The separator -/

section Separator

variable {α : Type} {sep : α} {p : α → Bool} {back text : List α}

theorem cut_append (front : List α) (hsep : p sep = false) (h : ∀ c ∈ back, p c = true) :
    (front ++ sep :: back).rdropWhile p = front ++ [sep] ∧
      (front ++ sep :: back).rtakeWhile p = back := by
  have hrev : (front ++ sep :: back).reverse = back.reverse ++ sep :: front.reverse := by
    simp
  have hback : ∀ c ∈ back.reverse, p c = true := fun c hc => h c (List.mem_reverse.mp hc)
  constructor
  · rw [List.rdropWhile, hrev, List.dropWhile_append_of_pos hback,
      List.dropWhile_cons_of_neg (by rw [hsep]; exact Bool.false_ne_true)]
    simp
  · rw [List.rtakeWhile, hrev, List.takeWhile_append_of_pos hback,
      List.takeWhile_cons_of_neg (by rw [hsep]; exact Bool.false_ne_true)]
    simp

theorem append_cut (hp : ∀ c, p c = false → c = sep) (h : text.rdropWhile p ≠ []) :
    text = (text.rdropWhile p).dropLast ++ sep :: text.rtakeWhile p := by
  have hlast : (text.rdropWhile p).getLast h = sep :=
    hp _ (Bool.eq_false_iff.mpr (List.rdropWhile_last_not p text h))
  calc text = text.rdropWhile p ++ text.rtakeWhile p :=
        List.rdropWhile_append_rtakeWhile.symm
    _ = ((text.rdropWhile p).dropLast ++ [sep]) ++ text.rtakeWhile p := by
        rw [← hlast, List.dropLast_concat_getLast]
    _ = _ := by rw [List.append_assoc, List.singleton_append]

end Separator

/-! ## The check -/

/-- The two constants differ, so the variant is known from the remainder. -/
theorem variantOf_eq_some {chk : BitVec 30} {v : Variant} :
    variantOf chk = some v ↔ chk = constant v := by
  rw [variantOf]
  constructor
  · intro h
    split at h
    · rename_i hchk
      rw [hchk, Option.some.inj h]
    split at h
    · rename_i hchk
      rw [hchk, Option.some.inj h]
    · cases h
  · rintro rfl
    cases v with
    | bech32 => rfl
    | bech32m => rfl

theorem length_checksum (v : Variant) (hrp : List Char) (data : List (BitVec 5)) :
    (checksum v hrp data).length = 6 := length_unpack _

/-- The last six symbols pass the check of a variant exactly if they are its check
    symbols. -/
theorem polymod_eq_constant {v : Variant} {hrp : List Char} {data last : List (BitVec 5)}
    (hlast : last.length = 6) :
    polymod (hrpExpand hrp ++ (data ++ last)) = constant v ↔ last = checksum v hrp data := by
  have hsplit (xs : List (BitVec 5)) : polymod (hrpExpand hrp ++ (data ++ xs)) =
      run feedback (polymod (hrpExpand hrp ++ data)) xs := by
    rw [← List.append_assoc, polymod, run, List.foldl_append]
    rfl
  rw [hsplit, run_eq_iff feedback rfl hlast, ← hsplit, ← List.append_assoc]
  rfl

/-! ## Encoding and decoding -/

variable {s hrp : String} {data : List (BitVec 5)} {v : Variant}

/-- What it is for a text to be an encoding but for its case. -/
theorem lower_eq_encode : lower s = encode v hrp data ↔
    s.toList.map Char.toLower =
      hrp.toList ++ '1' :: (data ++ checksum v hrp.toList data).map char :=
  String.ofList_inj

/-- Decoding goes back from the parts to the text. -/
theorem lower_of_decode (h : decode s = some (hrp, data, v)) :
    mixedCase s.toList = false ∧ validHrp hrp.toList = true ∧ lower s = encode v hrp data := by
  rw [decode] at h
  split at h
  · cases h
  rename_i hcase
  simp only at h
  split at h
  · rename_i hvalid
    split at h
    · cases h
    rename_i values hvalues
    split at h
    · rename_i hlen
      obtain ⟨v', hv, hparts⟩ := Option.map_eq_some_iff.mp h
      obtain ⟨rfl, hrest⟩ := Prod.mk.inj hparts
      obtain ⟨rfl, rfl⟩ := Prod.mk.inj hrest
      refine ⟨Bool.eq_false_iff.mpr hcase, ?_, ?_⟩
      · exact (congrArg validHrp String.toList_ofList).trans hvalid
      have hfront : (s.toList.map Char.toLower).rdropWhile (· ≠ '1') ≠ [] := by
        intro hnil
        rw [hnil] at hvalid
        cases hvalid
      -- the checksum is the one of the parts, as the residue is a constant
      have hlast : values.drop (values.length - 6) = checksum v'
          ((s.toList.map Char.toLower).rdropWhile (· ≠ '1')).dropLast
          (values.take (values.length - 6)) := by
        apply (polymod_eq_constant (by rw [List.length_drop]; omega)).mp
        rw [List.take_append_drop]
        exact variantOf_eq_some.mp hv
      rw [lower_eq_encode, String.toList_ofList, ← hlast, List.take_append_drop,
        ← mapM_symbol.mp hvalues]
      refine append_cut (fun c hc => ?_) hfront
      exact Classical.not_not.mp (of_decide_eq_false hc)
    · cases h
  · cases h

/-- The encoding is decoded, in either case of its letters. -/
theorem decode_of_lower (hcase : mixedCase s.toList = false)
    (hvalid : validHrp hrp.toList = true) (htext : lower s = encode v hrp data) :
    decode s = some (hrp, data, v) := by
  have hvalues : ∀ c ∈ (data ++ checksum v hrp.toList data).map char,
      decide (c ≠ '1') = true := by
    intro c hc
    obtain ⟨x, -, rfl⟩ := List.mem_map.mp hc
    exact decide_eq_true (char_ne_separator x)
  obtain ⟨hfront, hback⟩ := cut_append hrp.toList
    (show decide ('1' ≠ '1') = false by decide) hvalues
  rw [lower_eq_encode] at htext
  have hchk : variantOf (polymod (hrpExpand hrp.toList ++
      (data ++ checksum v hrp.toList data))) = some v :=
    variantOf_eq_some.mpr ((polymod_eq_constant (length_checksum ..)).mpr rfl)
  have hlen : (data ++ checksum v hrp.toList data).length = data.length + 6 := by
    rw [List.length_append, length_checksum]
  rw [decode, hcase, htext]
  simp only [Bool.false_eq_true, if_false, hfront, hback, List.dropLast_concat, hvalid, if_true,
    mapM_symbol.mpr rfl, hlen, Nat.le_add_left, hchk, Nat.add_sub_cancel, List.take_left',
    Option.map_some, String.ofList_toList]

/-- **EXACTNESS**: what is decoded from a text is what it encodes, letter case apart. -/
theorem decode_eq_some : decode s = some (hrp, data, v) ↔
    mixedCase s.toList = false ∧ validHrp hrp.toList = true ∧ lower s = encode v hrp data :=
  ⟨lower_of_decode, fun ⟨hcase, hvalid, htext⟩ => decode_of_lower hcase hvalid htext⟩

example : decode "A12UEL5L" = some ("a", [], .bech32) := by decide +kernel
example : decode "A1LQFN3A" = some ("a", [], .bech32m) := by decide +kernel

theorem mem_encode {c : Char} (h : c ∈ (encode v hrp data).toList) :
    c ∈ hrp.toList ∨ c = '1' ∨ ∃ x, c = char x := by
  rw [encode, String.toList_ofList, List.mem_append, List.mem_cons, List.mem_map] at h
  rcases h with hhrp | hsep | ⟨x, -, rfl⟩
  · exact Or.inl hhrp
  · exact Or.inr (Or.inl hsep)
  · exact Or.inr (Or.inr ⟨x, rfl⟩)

theorem toLower_of_lower {c : Char} (h : c.isUpper = false) : c.toLower = c := by
  have hnot : ¬ (c.val ≥ 'A'.val ∧ c.val ≤ 'Z'.val) := of_decide_eq_false h
  exact dif_neg hnot

/-- **ROUND TRIP**: an encoding under a part in lower case is decoded. -/
theorem decode_encode (hvalid : validHrp hrp.toList = true)
    (hlower : hrp.toList.any Char.isUpper = false) :
    decode (encode v hrp data) = some (hrp, data, v) := by
  have hall : ∀ c ∈ (encode v hrp data).toList, c.isUpper = false := by
    intro c hc
    rcases mem_encode hc with hhrp | rfl | ⟨x, rfl⟩
    · exact Bool.eq_false_iff.mpr (List.any_eq_false.mp hlower c hhrp)
    · rfl
    · exact isUpper_char x
  apply decode_of_lower ?_ hvalid ?_
  · rw [mixedCase, List.any_eq_false.mpr fun c hc => Bool.eq_false_iff.mp (hall c hc),
      Bool.and_false]
  · rw [lower, List.map_congr_left fun c hc => toLower_of_lower (hall c hc), List.map_id',
      String.ofList_toList]

end Bech32
