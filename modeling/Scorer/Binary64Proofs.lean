import Mathlib

/-! # Decimal numbers through binary64

    A program that keeps an amount in a binary floating-point number writes it as the
    shortest decimal text that is read back as that number.

    * `rounded`: a rational to the nearest binary64 number, ties to even;
    * `rounded_natCast`, `rounded_error`: which numbers are exact, and the error of the
      others;
    * `Shortest`: a text of the fewest digits that reads as a number;
    * `shortest_decimal`: a decimal number of up to `2 ^ 51` units survives, whatever the
      unit. -/

namespace Binary64

/-! ## Rounding -/

/-- To the nearest integer, of two such to the even one. -/
def roundHalfEven (q : ℚ) : ℤ :=
  if q - ⌊q⌋ < 1 / 2 then ⌊q⌋
  else if 1 / 2 < q - ⌊q⌋ then ⌊q⌋ + 1
  else if ⌊q⌋ % 2 = 0 then ⌊q⌋ else ⌊q⌋ + 1

/-- The exponent of the last of the 53 digits, which the subnormal numbers bound. -/
def lastPlace (q : ℚ) : ℤ := max (Int.log 2 |q| - 52) (-1074)

/-- The nearest binary64 number; the range is not bounded above. -/
def rounded (q : ℚ) : ℚ := roundHalfEven (q / 2 ^ lastPlace q) * 2 ^ lastPlace q

/-- A rounding moves a number by half at most. -/
theorem roundHalfEven_error (q : ℚ) : |roundHalfEven q - q| ≤ 1 / 2 := by
  have hfloor := Int.floor_le q
  have hlt := Int.lt_floor_add_one q
  rw [roundHalfEven, abs_le]
  split_ifs <;> push_cast <;> constructor <;> linarith

theorem roundHalfEven_intCast (n : ℤ) : roundHalfEven n = n := by
  rw [roundHalfEven, Int.floor_intCast, sub_self, if_pos (by norm_num)]

theorem roundHalfEven_nonneg {q : ℚ} (h : 0 ≤ q) : 0 ≤ roundHalfEven q := by
  have hfloor := Int.floor_nonneg.mpr h
  rw [roundHalfEven]
  split_ifs <;> omega

theorem rounded_zero : rounded 0 = 0 := by
  have hzero := roundHalfEven_intCast 0
  rw [Int.cast_zero] at hzero
  rw [rounded, zero_div, hzero, Int.cast_zero, zero_mul]

/-- Rounding to a double keeps the sign. -/
theorem rounded_nonneg {q : ℚ} (h : 0 ≤ q) : 0 ≤ rounded q :=
  mul_nonneg (Int.cast_nonneg (roundHalfEven_nonneg (by positivity))) (by positivity)

/-- An integer below `2 ^ 53` is exact. -/
theorem rounded_natCast {n : ℕ} (h : n < 2 ^ 53) : rounded n = n := by
  have hlog : Int.log 2 |(n : ℚ)| ≤ 52 := by
    rw [Nat.abs_cast, Int.log_natCast]
    rcases Nat.eq_zero_or_pos n with rfl | hpos
    · norm_num
    · have hlt := (Nat.log_lt_iff_lt_pow (b := 2) (x := 53) (by norm_num) hpos.ne').mpr h
      omega
  obtain ⟨place, hplace⟩ := Int.eq_ofNat_of_zero_le (neg_nonneg.mpr (max_le
    (sub_nonpos.mpr hlog) (by norm_num) : lastPlace n ≤ 0))
  have hpow : (2 : ℚ) ^ lastPlace n = ((2 : ℚ) ^ place)⁻¹ := by
    rw [← zpow_natCast, ← zpow_neg, ← hplace, neg_neg, lastPlace]
  have hint : (n : ℚ) / 2 ^ lastPlace n = ((n * 2 ^ place : ℤ) : ℚ) := by
    rw [hpow, div_inv_eq_mul]
    push_cast
    rfl
  rw [rounded, hint, roundHalfEven_intCast, ← hint, div_mul_cancel₀ _ (by positivity)]

/-- The error is half a last place: relative to the number, or of the smallest one. -/
theorem rounded_error {q : ℚ} (h : 0 ≤ q) : |rounded q - q| ≤ q / 2 ^ 53 + 1 / 2 ^ 1075 := by
  rcases h.eq_or_lt with rfl | hpos
  · rw [rounded_zero, sub_self, abs_zero]
    positivity
  have hplace : (0 : ℚ) < 2 ^ lastPlace q := by positivity
  have hscaled : rounded q - q =
      (roundHalfEven (q / 2 ^ lastPlace q) - q / 2 ^ lastPlace q) * 2 ^ lastPlace q := by
    rw [sub_mul, div_mul_cancel₀ _ hplace.ne', rounded]
  have herror : |rounded q - q| ≤ 1 / 2 * 2 ^ lastPlace q := by
    rw [hscaled, abs_mul, abs_of_pos hplace]
    exact mul_le_mul_of_nonneg_right (roundHalfEven_error _) hplace.le
  refine herror.trans ?_
  -- a normal number has 53 bits, a smaller one the last place of all
  rcases max_choice (Int.log 2 |q| - 52) (-1074) with hmax | hmax
  · have hlog : ((2 : ℕ) : ℚ) ^ Int.log 2 q ≤ q := Int.zpow_log_le_self (by norm_num) hpos
    have hhalf : (1 / 2 : ℚ) * 2 ^ (Int.log 2 q - 52) = 2 ^ Int.log 2 q / 2 ^ 53 := by
      rw [zpow_sub₀ (by norm_num)]
      norm_num
      ring
    rw [lastPlace, hmax, abs_of_nonneg h, hhalf]
    exact le_add_of_le_of_nonneg (div_le_div_of_nonneg_right hlog (by positivity))
      (by positivity)
  · have hsmallest : (1 / 2 : ℚ) * 2 ^ (-1074 : ℤ) = 1 / 2 ^ 1075 := by
      rw [zpow_neg, show (1075 : ℕ) = 1074 + 1 from rfl, pow_succ]
      norm_num
    rw [lastPlace, hmax, hsmallest]
    exact le_add_of_nonneg_left (by positivity)

/-- The error in the subnormal range is smaller than any that is asked for. -/
theorem smallest_le : (1 : ℚ) / 2 ^ 1075 ≤ 1 / 2 ^ 128 :=
  one_div_le_one_div_of_le (by positivity) (pow_le_pow_right₀ (by norm_num) (by norm_num))

/-! ## Decimal texts -/

/-- `digits` with the last `decimals` of them behind the point, or with that many zeros
    after them. -/
structure Decimal where
  digits   : ℕ
  decimals : ℤ
  deriving DecidableEq, Repr

/-- The number that a decimal text states. -/
def Decimal.value (t : Decimal) : ℚ := t.digits / 10 ^ t.decimals

/-- How many digits it takes. -/
def Decimal.length (t : Decimal) : ℕ := (Nat.digits 10 t.digits).length

/-- Of the texts that are read as `v`, none has fewer digits. -/
structure Shortest (v : ℚ) (t : Decimal) : Prop where
  reads : rounded t.value = v
  fewest : ∀ t' : Decimal, rounded t'.value = v → t.length ≤ t'.length

theorem Decimal.value_nonneg (t : Decimal) : 0 ≤ t.value := by
  rw [Decimal.value]
  positivity

theorem Decimal.digits_lt (t : Decimal) {L : ℕ} (h : t.length ≤ L) : t.digits < 10 ^ L :=
  (Nat.digits_length_le_iff (by norm_num) _).mp h

/-- What can be read has a shortest text. -/
theorem exists_shortest (t : Decimal) : ∃ s, Shortest (rounded t.value) s := by
  obtain ⟨s, hs, hmin⟩ := WellFounded.has_min (measure Decimal.length).wf
    {s | rounded s.value = rounded t.value} ⟨t, rfl⟩
  exact ⟨s, hs, fun t' ht' => Nat.le_of_not_lt (hmin t' ht')⟩

/-- Two numbers with one reading are close. -/
theorem close_of_rounded_eq {x y : ℚ} (hx : 1 / 10 ^ 22 ≤ x) (hy : 0 ≤ y)
    (h : rounded x = rounded y) : |x - y| ≤ (x + y) / 2 ^ 52 := by
  have hx0 : 0 ≤ x := le_trans (by positivity) hx
  have hxe := abs_le.mp (rounded_error hx0)
  have hye := abs_le.mp (rounded_error hy)
  have hsmallest := smallest_le
  have hsmall : (1 : ℚ) / 2 ^ 128 ≤ 1 / 2 ^ 54 * (1 / 10 ^ 22) := by norm_num
  generalize (1 : ℚ) / 2 ^ 1075 = smallest at *
  rw [h] at hxe
  rw [abs_le]
  constructor <;> linarith

/-- Of two numbers of one unit. -/
theorem eq_of_close {a b k : ℕ} (ha : a < 2 ^ 51)
    (h : |(a / 10 ^ k : ℚ) - b / 10 ^ k| ≤ (a / 10 ^ k + b / 10 ^ k) / 2 ^ 52) : a = b := by
  have hunit : (0 : ℚ) < 10 ^ k := by positivity
  rw [← sub_div, ← add_div, abs_div, abs_of_pos hunit, div_right_comm,
    div_le_div_iff_of_pos_right hunit, le_div_iff₀ (by positivity)] at h
  have hint : |(a : ℤ) - b| * 2 ^ 52 ≤ a + b := by exact_mod_cast h
  rcases le_total (a : ℤ) b with hle | hle
  · rw [abs_of_nonpos (sub_nonpos.mpr hle)] at hint
    omega
  · rw [abs_of_nonneg (sub_nonneg.mpr hle)] at hint
    omega

/-- A number `d` of no more digits is not close to `a` in a smaller unit; the powers of
    ten need a word of their own, as `9` and `10` have different lengths. -/
theorem not_close_finer {a d X : ℕ} (ha : a < 2 ^ 51) (hpos : 0 < a) (hX : 10 * a ≤ X)
    (hlength : (Nat.digits 10 d).length ≤ (Nat.digits 10 a).length)
    (hpower : 10 ^ (Nat.digits 10 a).length = 10 * a → d < 10) :
    ¬ |(X : ℤ) - d| * 2 ^ 52 ≤ X + d := by
  have hd : d < 10 ^ (Nat.digits 10 a).length :=
    (Nat.digits_length_le_iff (by norm_num) d).mp hlength
  have hle := Nat.base_pow_length_digits_le 10 a (by norm_num) hpos.ne'
  generalize hL : (Nat.digits 10 a).length = L at *
  have hdX : (d : ℤ) ≤ X := by omega
  rw [abs_of_nonneg (sub_nonneg.mpr hdX)]
  rcases hle.eq_or_lt with heq | hlt
  · have hsmall := hpower heq
    omega
  · have hL17 : L < 17 := (Nat.pow_lt_pow_iff_right (a := 10) (by norm_num)).mp (by omega)
    have hbound : 10 ^ L ≤ 10 ^ 16 := Nat.pow_le_pow_right (by norm_num) (by omega)
    obtain ⟨l, rfl⟩ : ∃ l, L = l + 1 := Nat.exists_eq_succ_of_ne_zero fun hzero => by
      rw [hzero, List.length_eq_zero_iff, Nat.digits_eq_nil_iff_eq_zero] at hL
      omega
    rw [pow_succ] at hlt hd hbound
    omega

/-- **DECIMALS SURVIVE**: a number of up to `2 ^ 51` units `10 ^ -k` is rounded to a
    number whose shortest text is that of the number itself. -/
theorem shortest_decimal {a k : ℕ} {t : Decimal} (ha : a < 2 ^ 51) (hk : k ≤ 22)
    (h : Shortest (rounded (a / 10 ^ k)) t) : t.value = a / 10 ^ k := by
  have hself : (⟨a, k⟩ : Decimal).value = a / 10 ^ k := by rw [Decimal.value, zpow_natCast]
  have hlength : t.length ≤ (⟨a, k⟩ : Decimal).length := h.fewest ⟨a, k⟩ (by rw [hself])
  rcases Nat.eq_zero_or_pos a with rfl | hpos
  · have hnil : t.digits < 10 ^ 0 := t.digits_lt hlength
    rw [Decimal.value, Nat.lt_one_iff.mp hnil, Nat.cast_zero, zero_div, zero_div]
  have hunit : (1 : ℚ) / 10 ^ 22 ≤ a / 10 ^ k :=
    div_le_div₀ (by positivity) (by exact_mod_cast hpos) (by positivity)
      (pow_le_pow_right₀ (by norm_num) hk)
  have hclose := close_of_rounded_eq hunit t.value_nonneg h.reads.symm
  -- no more digits after the point: both are whole numbers of the unit
  rcases le_or_gt t.decimals k with hle | hgt
  · obtain ⟨m, hm⟩ := Int.le.dest hle
    have hcoarse : t.value = (t.digits * 10 ^ m : ℕ) / 10 ^ k := by
      rw [Decimal.value, ← zpow_natCast 10 k, ← hm, zpow_add₀ (by norm_num), zpow_natCast]
      push_cast
      field_simp
    rw [hcoarse] at hclose ⊢
    rw [← eq_of_close ha hclose]
  · obtain ⟨m, hm⟩ := Int.lt.dest hgt
    have hfiner : (a / 10 ^ k : ℚ) = (a * 10 ^ m.succ : ℕ) / 10 ^ t.decimals := by
      rw [← hm, zpow_add₀ (by norm_num), zpow_natCast, zpow_natCast]
      push_cast
      field_simp
    have hscale : (0 : ℚ) < 10 ^ t.decimals := by positivity
    rw [hfiner, Decimal.value, ← sub_div, ← add_div, abs_div, abs_of_pos hscale,
      div_right_comm, div_le_div_iff_of_pos_right hscale, le_div_iff₀ (by positivity)] at hclose
    refine absurd (by exact_mod_cast hclose) (not_close_finer ha hpos ?_ hlength ?_)
    · rw [pow_succ', Nat.mul_left_comm]
      exact Nat.mul_le_mul_left 10 (Nat.le_mul_of_pos_right a (by positivity))
    · intro hpower
      -- a power of ten, which one digit would do for
      obtain ⟨l, hl⟩ : ∃ l, (Nat.digits 10 a).length = l + 1 :=
        Nat.exists_eq_succ_of_ne_zero (by
          rw [Ne, List.length_eq_zero_iff, Nat.digits_eq_nil_iff_eq_zero]
          exact hpos.ne')
      rw [hl, pow_succ', Nat.mul_right_inj (by norm_num)] at hpower
      have hone : (⟨1, k - l⟩ : Decimal).value = a / 10 ^ k := by
        rw [Decimal.value, ← hpower, zpow_sub₀ (by norm_num), zpow_natCast, zpow_natCast]
        push_cast
        field_simp
      exact t.digits_lt (h.fewest ⟨1, k - l⟩ (by rw [hone]))

end Binary64
