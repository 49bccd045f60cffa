import Mathlib.Data.List.Basic
import Mathlib.Data.Nat.ModEq

/-! # Regrouping bits

    A sequence of words of one width is read as a sequence of bits, the most
    significant first, and cut into words of another width.

    * `stream` and `groups`: from words to bits and back, with what is left over;
    * `packed`: all the bits, filled up with zeros to a whole number of words;
    * `unpacked`: whole words only, if less than a word of the source is left over
      and that is zero;
    * `unpacked_iff`: one undoes exactly the other. -/

namespace BitGroups

variable {v w : Nat} {l pad : List Bool}

/-- The bits of a word, the most significant first. -/
def bits (x : BitVec w) : List Bool := List.ofFn fun i : Fin w => x.getMsb i

/-- The word of the first `w` bits. -/
def word (w : Nat) (l : List Bool) : BitVec w := (BitVec.ofBoolListBE (l.take w)).setWidth w

/-- The bits of the words, one after another. -/
def stream (xs : List (BitVec w)) : List Bool := xs.flatMap bits

/-- The whole words of a sequence of bits. -/
def groups (w : Nat) (l : List Bool) : List (BitVec w) :=
  (List.range (l.length / w)).map fun i => word w (l.drop (i * w))

/-- The bits after the last whole word. -/
def leftover (w : Nat) (l : List Bool) : List Bool := l.drop (l.length / w * w)

/-- The words of width `v` that hold the bits of the words, zeros behind them. -/
def packed (v : Nat) (xs : List (BitVec w)) : List (BitVec v) :=
  groups v (stream xs ++ List.replicate ((v - (stream xs).length % v) % v) false)

/-- The words of width `w` in the bits of words of width `v`. -/
def unpacked (w : Nat) (ys : List (BitVec v)) : Option (List (BitVec w)) :=
  if (leftover w (stream ys)).length < v ∧ ∀ b ∈ leftover w (stream ys), b = false then
    some (groups w (stream ys))
  else none

/-! ## Words and bits -/

@[simp] theorem length_bits (x : BitVec w) : (bits x).length = w := List.length_ofFn

/-- The bits are listed from the highest on. -/
theorem getElem?_bits (x : BitVec w) (i : Nat) :
    (bits x)[i]? = if i < w then some (x.getMsbD i) else none := by
  by_cases hi : i < w
  · rw [bits, List.getElem?_ofFn, dif_pos hi, if_pos hi]
    rw [BitVec.getMsbD, decide_eq_true hi, Bool.true_and]
    rfl
  · rw [if_neg hi, List.getElem?_eq_none (by rw [length_bits]; omega)]

/-- A word takes its bits from the front. -/
theorem getMsbD_word (h : w ≤ l.length) {i : Nat} (hi : i < w) :
    (word w l).getMsbD i = l.getD i false := by
  have hlen : (l.take w).length = w := List.length_take_of_le h
  rw [word, BitVec.getMsbD_setWidth, BitVec.getMsbD_ofBoolListBE, hlen, Nat.sub_self,
    Nat.add_sub_cancel, decide_eq_true (Nat.zero_le i), Bool.true_and]
  simp [hi]

theorem bits_word (h : w ≤ l.length) : bits (word w l) = l.take w := by
  apply List.ext_getElem?
  intro i
  rw [getElem?_bits]
  by_cases hi : i < w
  · rw [if_pos hi, getMsbD_word h hi, List.getElem?_take_of_lt hi, List.getD_eq_getElem?_getD,
      List.getElem?_eq_getElem (by omega), Option.getD_some]
  · rw [if_neg hi, List.getElem?_eq_none (by rw [List.length_take]; omega)]

/-- Bits are read back as the word that they are of. -/
theorem word_bits (x : BitVec w) (l : List Bool) : word w (bits x ++ l) = x := by
  apply BitVec.eq_of_getMsbD_eq
  intro i hi
  rw [getMsbD_word (by rw [List.length_append, length_bits]; omega) hi,
    List.getD_eq_getElem?_getD, List.getElem?_append_left (by rwa [length_bits]),
    getElem?_bits, if_pos hi, Option.getD_some]

/-! ## Cutting -/

@[simp] theorem stream_nil : stream ([] : List (BitVec w)) = [] := rfl

@[simp] theorem stream_cons (x : BitVec w) (xs : List (BitVec w)) :
    stream (x :: xs) = bits x ++ stream xs := List.flatMap_cons

@[simp] theorem length_stream (xs : List (BitVec w)) : (stream xs).length = xs.length * w := by
  induction xs with
  | nil => rw [stream_nil, List.length_nil, List.length_nil, Nat.zero_mul]
  | cons x xs ih =>
      rw [stream_cons, List.length_append, length_bits, ih, List.length_cons, Nat.succ_mul,
        Nat.add_comm]

/-- A whole word at the front is the first group. -/
theorem groups_bits (hw : 0 < w) (x : BitVec w) (l : List Bool) :
    groups w (bits x ++ l) = x :: groups w l := by
  have hcount : (bits x ++ l).length / w = l.length / w + 1 := by
    rw [List.length_append, length_bits, Nat.add_comm, Nat.add_div_right _ hw]
  rw [groups, groups, hcount, List.range_succ_eq_map, List.map_cons, List.map_map]
  congr 1
  · rw [Nat.zero_mul, List.drop_zero, word_bits]
  · apply List.map_congr_left
    intro i _
    show word w ((bits x ++ l).drop ((i + 1) * w)) = word w (l.drop (i * w))
    rw [Nat.succ_mul, Nat.add_comm, ← List.drop_drop, List.drop_left' (length_bits x)]

/-- Words followed by less than a word are found again. -/
theorem groups_stream (hpad : pad.length < w) (xs : List (BitVec w)) :
    groups w (stream xs ++ pad) = xs := by
  induction xs with
  | nil => rw [stream_nil, List.nil_append, groups, Nat.div_eq_of_lt hpad]; rfl
  | cons x xs ih => rw [stream_cons, List.append_assoc, groups_bits (by omega), ih]

/-- What is too short for a word is left over. -/
theorem leftover_stream (hpad : pad.length < w) (xs : List (BitVec w)) :
    leftover w (stream xs ++ pad) = pad := by
  have hcount : (stream xs ++ pad).length / w = xs.length := by
    rw [List.length_append, length_stream, Nat.add_comm, Nat.add_mul_div_right _ _ (by omega),
      Nat.div_eq_of_lt hpad, Nat.zero_add]
  rw [leftover, hcount, List.drop_left' (length_stream xs)]

/-- Every sequence of bits is that of some words and less than a word. -/
theorem exists_stream (hw : 0 < w) (l : List Bool) :
    ∃ (xs : List (BitVec w)) (pad : List Bool), l = stream xs ++ pad ∧ pad.length < w := by
  induction hn : l.length using Nat.strongRecOn generalizing l with
  | ind n ih =>
      -- on the number of bits: a word is cut off as long as there is one
      by_cases hlt : l.length < w
      · exact ⟨[], l, rfl, hlt⟩
      · obtain ⟨xs, pad, hrest, hpad⟩ := ih (l.drop w).length
          (by rw [List.length_drop]; omega) (l.drop w) rfl
        refine ⟨word w l :: xs, pad, ?_, hpad⟩
        rw [stream_cons, bits_word (by omega), List.append_assoc, ← hrest, List.take_append_drop]

/-- Words of a known width are found again in their bits. -/
theorem stream_injective (hw : 0 < w) {xs ys : List (BitVec w)} (h : stream xs = stream ys) :
    xs = ys := by
  have hxs := groups_stream (show ([] : List Bool).length < w from hw) xs
  rw [h, groups_stream hw] at hxs
  exact hxs.symm

/-! ## Packing and unpacking -/

/-- The bits of `ys` are those of `xs` and, behind them, less than a word of zeros. -/
def Padded (xs : List (BitVec w)) (ys : List (BitVec v)) : Prop :=
  ∃ n < v, stream ys = stream xs ++ List.replicate n false

/-- The zeros fill the last word. -/
theorem dvd_filled (hv : 0 < v) (a : Nat) : v ∣ a + (v - a % v) % v := by
  have hle : a % v ≤ v := Nat.le_of_lt (Nat.mod_lt a hv)
  apply Nat.dvd_of_mod_eq_zero
  rw [Nat.add_mod_mod, ← Nat.mod_add_mod, Nat.add_sub_of_le hle, Nat.mod_self]

/-- Packing pads with zeros, and with less than a group of them. -/
theorem packed_padded (hv : 0 < v) (xs : List (BitVec w)) : Padded xs (packed v xs) := by
  obtain ⟨ys, pad, hys, hpad⟩ := exists_stream hv
    (stream xs ++ List.replicate ((v - (stream xs).length % v) % v) false)
  -- the filled bits are a number of whole groups
  have hdvd : pad = [] := by
    have hlen := congrArg List.length hys
    rw [List.length_append, List.length_append, List.length_replicate, length_stream ys] at hlen
    have hpad' : v ∣ pad.length := by
      have hsum := dvd_filled hv (stream xs).length
      rw [hlen] at hsum
      exact (Nat.dvd_add_right (Nat.dvd_mul_left v _)).mp hsum
    exact List.length_eq_zero_iff.mp (Nat.eq_zero_of_dvd_of_lt hpad' hpad)
  refine ⟨_, Nat.mod_lt (v - (stream xs).length % v) hv, ?_⟩
  rw [packed, hys, groups_stream hpad, hdvd, List.append_nil]

theorem eq_packed (hv : 0 < v) {xs : List (BitVec w)} {ys : List (BitVec v)}
    (h : Padded xs ys) : ys = packed v xs := by
  obtain ⟨n, hn, hys⟩ := h
  obtain ⟨m, hm, hpacked⟩ := packed_padded hv xs
  -- both numbers of zeros complete the bits to groups, and are less than one
  have hnm : n = m := by
    have hfill {n : Nat} {zs : List (BitVec v)}
        (h : stream zs = stream xs ++ List.replicate n false) :
        (stream xs).length + n ≡ 0 [MOD v] := by
      have hlen := congrArg List.length h
      rw [List.length_append, List.length_replicate, length_stream zs] at hlen
      rw [← hlen]
      exact (Nat.modEq_zero_iff_dvd).mpr (Nat.dvd_mul_left v _)
    exact (Nat.ModEq.add_left_cancel' _ ((hfill hys).trans (hfill hpacked).symm)).eq_of_lt_of_lt
      hn hm
  apply stream_injective hv
  rw [hys, hpacked, hnm]

/-- **UNPACKING**: exactly the padded ones are unpacked, to what was packed. -/
theorem unpacked_eq_some (hvw : v ≤ w) {xs : List (BitVec w)} {ys : List (BitVec v)}
    (hw : 0 < w) : unpacked w ys = some xs ↔ Padded xs ys := by
  obtain ⟨zs, pad, hys, hpad⟩ := exists_stream hw (stream ys)
  rw [unpacked, hys, groups_stream hpad, leftover_stream hpad]
  constructor
  · intro h
    split at h
    · rename_i hzero
      obtain rfl := Option.some.inj h
      refine ⟨pad.length, hzero.1, ?_⟩
      rw [hys, List.eq_replicate_of_mem hzero.2, List.length_replicate]
    · cases h
  · rintro ⟨n, hn, hxs⟩
    have hzeros : (List.replicate n false).length < w := by
      rw [List.length_replicate]
      omega
    have hgroups := groups_stream hpad zs
    have hleft := leftover_stream hpad zs
    rw [← hys, hxs, groups_stream hzeros] at hgroups
    rw [← hys, hxs, leftover_stream hzeros] at hleft
    obtain rfl := hgroups
    rw [← hleft, if_pos]
    refine ⟨by rwa [List.length_replicate], fun b hb => List.eq_of_mem_replicate hb⟩

/-- **EXACTNESS**: unpacking takes just what packing gives, and gives it back. -/
theorem unpacked_iff (hv : 0 < v) (hvw : v ≤ w) {xs : List (BitVec w)} {ys : List (BitVec v)} :
    unpacked w ys = some xs ↔ ys = packed v xs := by
  rw [unpacked_eq_some hvw (by omega)]
  constructor
  · exact eq_packed hv
  · rintro rfl
    exact packed_padded hv xs

end BitGroups
