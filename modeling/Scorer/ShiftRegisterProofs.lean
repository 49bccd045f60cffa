import Mathlib.Algebra.Group.Nat.Defs
import Mathlib.Data.List.Induction

/-! # Check symbols of a shift register

    A register of `n` bits takes in symbols of `w` bits: it shifts by a symbol, adds
    the new one and adds a word that depends on the bits shifted out.  Whatever that
    dependence is, symbols that still fit into the register only add themselves to
    what zeros in their place would give (`run_pack`).  So for each state there is
    one sequence of `n / w` symbols that leads to a wanted end (`run_eq_iff`): the
    check symbols. -/

namespace ShiftRegister

variable {w n k : Nat} (feedback : BitVec n → BitVec n)

/-- One symbol. -/
def step (c : BitVec n) (x : BitVec w) : BitVec n :=
  (c <<< w) ^^^ x.setWidth n ^^^ feedback (c >>> (n - w))

/-- The register after a row of symbols. -/
def run (c : BitVec n) (xs : List (BitVec w)) : BitVec n := xs.foldl (step feedback) c

/-- The number with these digits. -/
def value (xs : List (BitVec w)) : Nat := xs.foldl (fun a x => 2 ^ w * a + x.toNat) 0

/-- The register that holds the symbols, the first at the top. -/
def pack (n : Nat) (xs : List (BitVec w)) : BitVec n := BitVec.ofNat n (value xs)

/-- The `k` symbols that a register holds. -/
def unpack (w k : Nat) (c : BitVec n) : List (BitVec w) :=
  (List.range k).map fun i => (c >>> (w * (k - 1 - i))).setWidth w

@[simp] theorem length_unpack (c : BitVec n) : (unpack w k c).length = k := by
  rw [unpack, List.length_map, List.length_range]

theorem value_concat (xs : List (BitVec w)) (x : BitVec w) :
    value (xs ++ [x]) = 2 ^ w * value xs + x.toNat := by
  rw [value, List.foldl_append]
  rfl

theorem value_lt (xs : List (BitVec w)) : value xs < 2 ^ (w * xs.length) := by
  induction xs using List.reverseRecOn with
  | nil => exact Nat.one_pos
  | append_singleton xs x ih =>
      have hx := x.isLt
      rw [value_concat, List.length_append, List.length_singleton, Nat.mul_succ, Nat.pow_add,
        Nat.mul_comm (2 ^ (w * xs.length))]
      calc 2 ^ w * value xs + x.toNat < 2 ^ w * value xs + 2 ^ w := Nat.add_lt_add_left hx _
        _ = 2 ^ w * (value xs + 1) := (Nat.mul_succ _ _).symm
        _ ≤ 2 ^ w * 2 ^ (w * xs.length) := Nat.mul_le_mul_left _ ih

theorem pack_concat (xs : List (BitVec w)) (x : BitVec w) :
    pack n (xs ++ [x]) = (pack n xs <<< w) ^^^ x.setWidth n := by
  apply BitVec.eq_of_getLsbD_eq
  intro i hi
  have hbit := Nat.testBit_two_pow_mul_add (value xs) x.isLt i
  rw [BitVec.getLsbD_xor, BitVec.getLsbD_shiftLeft, BitVec.getLsbD_setWidth, pack, pack,
    BitVec.getLsbD_ofNat, BitVec.getLsbD_ofNat, value_concat, hbit]
  by_cases hiw : i < w
  · simp [hi, hiw, BitVec.testBit_toNat]
  · have hsub : i - w < n := by omega
    have hhigh : x.getLsbD i = false := BitVec.getLsbD_of_ge x i (by omega)
    simp [hi, hiw, hsub, hhigh]

/-- Symbols that fit in do not reach the bits shifted out. -/
theorem pack_top {xs : List (BitVec w)} (h : w * (xs.length + 1) ≤ n) :
    pack n xs >>> (n - w) = 0 := by
  have hlt : value xs < 2 ^ (n - w) := by
    refine Nat.lt_of_lt_of_le (value_lt xs) (Nat.pow_le_pow_right Nat.two_pos ?_)
    rw [Nat.mul_succ] at h
    omega
  apply BitVec.eq_of_toNat_eq
  rw [BitVec.toNat_ushiftRight, pack, BitVec.toNat_ofNat, Nat.shiftRight_eq_div_pow]
  exact Nat.div_eq_of_lt (Nat.lt_of_le_of_lt (Nat.mod_le _ _) hlt)

variable (w) in
/-- `k` symbols that are zero. -/
def zeros (k : Nat) : List (BitVec w) := List.replicate k 0

/-- Symbols that fit in add themselves to what zeros would give. -/
theorem run_pack (xs : List (BitVec w)) (c : BitVec n) (h : w * xs.length ≤ n) :
    run feedback c xs = run feedback c (zeros w xs.length) ^^^ pack n xs := by
  induction xs using List.reverseRecOn with
  | nil => exact BitVec.xor_zero.symm
  | append_singleton xs x ih =>
      rw [List.length_append, List.length_singleton] at h ⊢
      have hstep (y : BitVec w) (ys : List (BitVec w)) :
          run feedback c (ys ++ [y]) = step feedback (run feedback c ys) y := by
        rw [run, List.foldl_append]
        rfl
      have hzeros : zeros w (xs.length + 1) = zeros w xs.length ++ [0] :=
        List.replicate_succ'
      rw [hstep, hzeros, hstep, ih (Nat.le_trans (Nat.mul_le_mul_left w (Nat.le_succ _)) h),
        pack_concat, step, step, BitVec.ushiftRight_xor_distrib, pack_top h,
        BitVec.shiftLeft_xor_distrib]
      simp only [BitVec.ofNat_eq_ofNat, BitVec.setWidth_zero, BitVec.xor_zero]
      ac_rfl

/-- What was unpacked is packed again. -/
theorem pack_unpack (h : w * k = n) (c : BitVec n) : pack n (unpack w k c) = c := by
  have hvalue (j : Nat) (hj : j ≤ k) :
      value ((List.range j).map fun i => (c >>> (w * (k - 1 - i))).setWidth w)
        = c.toNat / 2 ^ (w * (k - j)) := by
    induction j with
    | zero =>
        have hc : c.toNat < 2 ^ (w * (k - 0)) := by
          rw [Nat.sub_zero, h]
          exact c.isLt
        exact (Nat.div_eq_of_lt hc).symm
    | succ j ih =>
        have hpow : w * (k - j) = w * (k - (j + 1)) + w := by
          rw [← Nat.mul_succ]
          congr 1
          omega
        have hindex : k - 1 - j = k - (j + 1) := by omega
        rw [List.range_succ, List.map_append, List.map_singleton, value_concat,
          ih (Nat.le_of_succ_le hj), BitVec.toNat_setWidth, BitVec.toNat_ushiftRight,
          Nat.shiftRight_eq_div_pow, hindex, hpow, Nat.pow_add, ← Nat.div_div_eq_div_mul]
        exact Nat.div_add_mod _ _
  rw [pack, unpack, hvalue k (Nat.le_refl k), Nat.sub_self, Nat.mul_zero, Nat.pow_zero,
    Nat.div_one, BitVec.ofNat_toNat, BitVec.setWidth_eq]

/-- Symbols of one length are known from their value. -/
theorem value_injective : ∀ {xs ys : List (BitVec w)}, xs.length = ys.length →
    value xs = value ys → xs = ys := by
  intro xs
  induction xs using List.reverseRecOn with
  | nil => exact fun hlen _ => (List.length_eq_zero_iff.mp hlen.symm).symm
  | append_singleton xs x ih =>
      intro ys hlen hvalue
      induction ys using List.reverseRecOn with
      | nil => simp at hlen
      | append_singleton ys y =>
          rw [value_concat, value_concat] at hvalue
          have hpow : 0 < 2 ^ w := Nat.two_pow_pos w
          have hlast : x = y := by
            have hmod := congrArg (· % 2 ^ w) hvalue
            simp only [Nat.mul_add_mod, Nat.mod_eq_of_lt x.isLt, Nat.mod_eq_of_lt y.isLt] at hmod
            exact BitVec.eq_of_toNat_eq hmod
          have hfront : value xs = value ys := by
            rw [hlast] at hvalue
            exact Nat.eq_of_mul_eq_mul_left hpow (Nat.add_right_cancel hvalue)
          rw [List.length_append, List.length_append] at hlen
          rw [ih (Nat.add_right_cancel hlen) hfront, hlast]

theorem pack_injective {xs ys : List (BitVec w)} (h : w * xs.length = n)
    (hlen : xs.length = ys.length) (hpack : pack n xs = pack n ys) : xs = ys := by
  have hnat := congrArg BitVec.toNat hpack
  have hxs := value_lt xs
  have hys := value_lt ys
  rw [h] at hxs
  rw [← hlen, h] at hys
  rw [pack, pack, BitVec.toNat_ofNat, BitVec.toNat_ofNat, Nat.mod_eq_of_lt hxs,
    Nat.mod_eq_of_lt hys] at hnat
  exact value_injective hlen hnat

/-- **CHECK SYMBOLS**: from every state one sequence of symbols that fills the register
    leads to a given end. -/
theorem run_eq_iff (hk : w * k = n) {xs : List (BitVec w)} (hxs : xs.length = k)
    (c target : BitVec n) : run feedback c xs = target ↔
      xs = unpack w k (target ^^^ run feedback c (zeros w k)) := by
  have hfits : w * xs.length = n := by rw [hxs, hk]
  have hself : run feedback c xs = run feedback c (zeros w k) ^^^ pack n xs := by
    rw [← hxs]
    exact run_pack feedback xs c (Nat.le_of_eq hfits)
  have hcancel (a b : BitVec n) : (a ^^^ b) ^^^ a = b := by
    rw [BitVec.xor_comm a b, BitVec.xor_assoc, BitVec.xor_self, BitVec.xor_zero]
  constructor
  · rintro rfl
    apply pack_injective hfits (by rw [hxs, length_unpack])
    rw [pack_unpack hk, hself, hcancel]
  · intro h
    rw [hself, h, pack_unpack hk, BitVec.xor_comm target, ← BitVec.xor_assoc,
      BitVec.xor_self, BitVec.zero_xor]

end ShiftRegister
