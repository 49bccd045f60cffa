import Scorer.Binary64Proofs
import Scorer.FeeBucketsProofs
import Scorer.WalletUtxosProofs

/-! # Fee rates through floats

    `bitcoind` states a fee rate in bitcoin for 1000 virtual bytes, the buckets hold
    satoshis for 1000 weight units, and the funding of a channel states the rate again,
    in satoshis for one virtual byte.

    * `feerateSatPerKw`, `feeAnswer` and `fundingFeeRate` follow the source, where
      `asF64` is how `serde_json` reads a number, known by `ReadsNearest`;
    * `feerate_nearest`: the rate that is stored is a nearest one, or the greatest there is;
    * `funding_rate_stated`: after any rounds of the poller, the rate that is stated for a
      funding is that of the last answer, to within its unit. -/

namespace FeeRates

open Binary64 FeeBuckets WalletUtxos

/-! ## Conversions -/

/-- What `Value::as_f64` promises: a number whose digits and whose power of ten are exact
    as floats is read as the nearest float; of longer ones it is only near. -/
def ReadsNearest (asF64 : JsonNumber → ℚ) : Prop :=
  ∀ digits decimals : ℕ, digits < 2 ^ 53 → 10 ^ decimals < 2 ^ 53 →
    asF64 ⟨digits, decimals⟩ = rounded (digits / 10 ^ decimals)

section Source

variable (asF64 : JsonNumber → ℚ)

/-- `.round() as u32`, which saturates. -/
def roundAsU32 (q : ℚ) : UInt32 := UInt32.ofNat (min (round q).toNat (2 ^ 32 - 1))

/-- The closure of the two `feerate_sat_per_kw`. -/
def feerateSatPerKw (feerateBtcPerKvbyte : ℚ) : UInt32 :=
  roundAsU32 (rounded (rounded (feerateBtcPerKvbyte * 100000000) / 4))

/-- `TryInto<FeeResponse>` with the field `feerate`, `TryInto<MempoolMinFeeResponse>`
    with `mempoolminfee`. -/
def feeResponse (field : String) (json : Json) : Option UInt32 :=
  match json.index field with
  | .number n => some (feerateSatPerKw (asF64 n))
  | _ => none

/-- What the poller makes of the answer to a call. -/
def feeAnswer (field : String) : Except String Json → RpcAnswer
  | .error _ => .error
  | .ok json =>
      match feeResponse asF64 field json with
      | some satPerKw => .feerate satPerKw
      | none => .noEstimate

end Source

/-- `get_est_sat_per_1000_weight(NonAnchorChannelFee) as f64 / 250.0`. -/
def fundingFeeRate (fees : Fees) : ℚ :=
  rounded (rounded (getEstSatPer1000Weight fees .nonAnchorChannelFee).toNat / 250)

/-- The answer to `getmempoolinfo` and those to `estimatesmartfee`. -/
def rateField : Estimate → String
  | .mempoolmin => "mempoolminfee"
  | _ => "feerate"

/-- The field states `n` satoshis for 1000 virtual bytes, as a number in bitcoin with up
    to eight decimals. -/
structure StatesRate (json : Json) (field : String) (n : ℕ) : Prop where
  number : ∃ digits decimals : ℕ, json.index field = .number ⟨digits, decimals⟩ ∧
    decimals ≤ 8 ∧ n = digits * 10 ^ (8 - decimals)
  le_maxMoney : n ≤ maxMoney

/-! ## One answer -/

variable {digits decimals n : ℕ} {asF64 : JsonNumber → ℚ}

/-- All the money there is fits the mantissa of a double. -/
theorem maxMoney_units : maxMoney < 2 ^ 51 := by decide

/-- A text with up to eight decimals is one rounding away from its number. -/
theorem asF64_documented (hparse : ReadsNearest asF64) (hdecimals : decimals ≤ 8)
    (hn : n = digits * 10 ^ (8 - decimals)) (hmax : n ≤ maxMoney) :
    asF64 ⟨digits, decimals⟩ = rounded (n / 10 ^ 8) := by
  have hunits := maxMoney_units
  have hdigits : digits ≤ n := hn ▸ Nat.le_mul_of_pos_right digits (by positivity)
  have hpow : (10 : ℚ) ^ decimals * 10 ^ (8 - decimals) = 10 ^ 8 := by
    rw [← pow_add, Nat.add_sub_cancel' hdecimals]
  have hten : 10 ^ decimals < 2 ^ 53 :=
    lt_of_le_of_lt (Nat.pow_le_pow_right (by norm_num) hdecimals) (by norm_num)
  rw [hparse digits decimals (by omega) hten, hn, ← hpow]
  congr 1
  push_cast
  field_simp

/-- The three roundings of the conversion are off by less than one unit together. -/
theorem feerate_error (hmax : n ≤ maxMoney) :
    |4 * rounded (rounded (rounded (n / 10 ^ 8) * 100000000) / 4) - n| < 1 := by
  have hn : (n : ℚ) ≤ 2100000000000000 := by exact_mod_cast hmax
  have hn0 : (0 : ℚ) ≤ n := n.cast_nonneg
  have hx : (0 : ℚ) ≤ n / 10 ^ 8 := by positivity
  have hf := abs_le.mp (rounded_error hx)
  have hf0 := rounded_nonneg hx
  generalize rounded (n / 10 ^ 8) = f at hf hf0 ⊢
  have hfs : (0 : ℚ) ≤ f * 100000000 := by positivity
  have hp := abs_le.mp (rounded_error hfs)
  have hp0 := rounded_nonneg hfs
  generalize rounded (f * 100000000) = p at hp hp0 ⊢
  have hs := abs_le.mp (rounded_error (div_nonneg hp0 zero_le_four))
  generalize rounded (p / 4) = s at hs ⊢
  -- what is left is linear in the three rounded numbers
  have hsmallest := smallest_le
  have hpos : (0 : ℚ) ≤ 1 / 2 ^ 1075 := by positivity
  generalize (1 : ℚ) / 2 ^ 1075 = smallest at *
  obtain ⟨hf1, hf2⟩ := hf
  obtain ⟨hp1, hp2⟩ := hp
  obtain ⟨hs1, hs2⟩ := hs
  rw [abs_lt]
  constructor <;> linarith

/-- **A NEAREST RATE**: what is stored for a rate of `n` satoshis for 1000 virtual bytes. -/
theorem feerate_nearest (hparse : ReadsNearest asF64) {json : Json} {field : String}
    (h : StatesRate json field n) :
    ∃ r : ℕ, |4 * (r : ℤ) - n| ≤ 2 ∧ ∃ satPerKw : UInt32,
      feeResponse asF64 field json = some satPerKw ∧ satPerKw.toNat = min r (2 ^ 32 - 1) := by
  obtain ⟨digits, decimals, hnumber, hdecimals, hn⟩ := h.number
  have herror := feerate_error h.le_maxMoney
  have hresponse : feeResponse asF64 field json =
      some (roundAsU32 (rounded (rounded (rounded (n / 10 ^ 8) * 100000000) / 4))) := by
    rw [feeResponse, hnumber]
    show some (feerateSatPerKw (asF64 _)) = _
    rw [asF64_documented hparse hdecimals hn h.le_maxMoney, feerateSatPerKw]
  have hs0 : 0 ≤ rounded (rounded (rounded (n / 10 ^ 8) * 100000000) / 4) :=
    rounded_nonneg (div_nonneg (rounded_nonneg (mul_nonneg (rounded_nonneg (by positivity))
      (by norm_num))) zero_le_four)
  generalize rounded (rounded (rounded (n / 10 ^ 8) * 100000000) / 4) = s at herror hresponse hs0
  have hround : |s - round s| ≤ 1 / 2 := abs_sub_round s
  have hround0 : 0 ≤ round s := by
    rw [round_eq]
    exact Int.floor_nonneg.mpr (by linarith)
  refine ⟨(round s).toNat, ?_, _, hresponse, ?_⟩
  · rw [Int.toNat_of_nonneg hround0]
    have hlt : |4 * (round s : ℚ) - n| < 3 := by
      rw [abs_lt] at herror ⊢
      rw [abs_le] at hround
      constructor <;> linarith [herror.1, herror.2, hround.1, hround.2]
    -- a whole number less than three away is at most two away
    have hlt' : |4 * round s - (n : ℤ)| < 3 := by exact_mod_cast hlt
    exact Int.lt_add_one_iff.mp hlt'
  · rw [roundAsU32]
    exact UInt32.toNat_ofNat_of_lt' (by
      show _ < 2 ^ 32
      omega)

/-! ## The buckets -/

/-- A rate in the range that the buckets can state, for 1000 virtual bytes. -/
def clamped (n : ℕ) : ℕ := min (max n (4 * 253)) (4 * (2 ^ 32 - 1))

/-- The estimate of an answered call. -/
theorem estimate_stated (hparse : ReadsNearest asF64) {fees : Fees} {e : Estimate} {json : Json}
    (h : StatesRate json (rateField e) n) :
    |4 * ((estimate fees e (feeAnswer asF64 (rateField e) (.ok json))).toNat : ℤ)
      - clamped n| ≤ 2 := by
  obtain ⟨r, hr, satPerKw, hresponse, hvalue⟩ := feerate_nearest hparse h
  have hestimate : (estimate fees e (feeAnswer asF64 (rateField e) (.ok json))).toNat =
      max satPerKw.toNat 253 := by
    rw [feeAnswer, hresponse]
    show (if satPerKw ≤ minFeerate then minFeerate else satPerKw).toNat = _
    by_cases hle : satPerKw ≤ minFeerate
    · have hfloor : satPerKw.toNat ≤ 253 := UInt32.le_iff_toNat_le.mp hle
      rw [if_pos hle, max_eq_right hfloor]
      rfl
    · have hfloor : 253 < satPerKw.toNat := UInt32.lt_iff_toNat_lt.mp (UInt32.not_le.mp hle)
      rw [if_neg hle, max_eq_left hfloor.le]
  rw [hestimate, hvalue, clamped]
  rw [abs_le] at hr ⊢
  omega

/-- Rounds in which the call fails keep its bucket. -/
theorem pollRounds_failed {target : ConfirmationTarget} {rounds later : List Answers}
    (hrounds : rounds ≠ []) (hlater : ∀ a ∈ later, a (behind target).call = .error) :
    pollRounds (rounds ++ later) target = pollRounds rounds target := by
  induction later using List.reverseRecOn with
  | nil => rw [List.append_nil]
  | append_singleton later answers ih =>
      -- a round has been made, so a failed call keeps its bucket
      have hstarted : (!(rounds ++ later).isEmpty) = true := by
        cases rounds with
        | nil => exact absurd rfl hrounds
        | cons _ _ => rfl
      rw [← List.append_assoc, pollRounds_concat,
        keeps_bucket (pollRounds_complete _) (pollRounds_mirrored _) (.inl hstarted)
          (hlater _ (List.mem_append_right _ (List.mem_singleton_self _)))]
      exact ih fun a ha => hlater a (List.mem_append_left _ ha)

/-- A bucket follows the last answer, through any number of failed calls. -/
theorem bucket_stated (hparse : ReadsNearest asF64) (target : ConfirmationTarget)
    (rounds : List Answers) {later : List Answers} {answers : Answers} {json : Json}
    (hne : target ≠ .minAllowedNonAnchorChannelRemoteFee)
    (hanswer : answers (behind target).call =
      feeAnswer asF64 (rateField (behind target)) (.ok json))
    (hjson : StatesRate json (rateField (behind target)) n)
    (hlater : ∀ a ∈ later, a (behind target).call = .error) :
    |4 * ((getEstSatPer1000Weight (pollRounds (rounds ++ [answers] ++ later)) target).toNat : ℤ)
      - clamped n| ≤ 2 := by
  rw [getEstSatPer1000Weight, pollRounds_failed (by simp) hlater, pollRounds_concat,
    pollRound_eq (pollRounds_complete _), storedValue, if_neg hne, Option.getD_some, estimates,
    hanswer]
  exact estimate_stated hparse hjson

/-- The text of the rate for a funding. -/
theorem fundingFeeRate_text {fees : Fees} {t : Decimal} (h : Shortest (fundingFeeRate fees) t) :
    t.value = (4 * (getEstSatPer1000Weight fees .nonAnchorChannelFee).toNat : ℕ) / 10 ^ 3 := by
  have hlt := (getEstSatPer1000Weight fees .nonAnchorChannelFee).toNat_lt
  rw [fundingFeeRate, rounded_natCast (by omega)] at h
  refine shortest_decimal (by omega) (by norm_num) ?_
  convert h using 2
  push_cast
  ring

/-- **THE RATE OF A FUNDING**: when the last `estimatesmartfee` for 18 blocks that was
    answered stated `n` satoshis for 1000 virtual bytes, the text of `fee_rate` states
    `n / 1000` for one, to within 0.002 and within the bounds of the buckets. -/
theorem funding_rate_stated (hparse : ReadsNearest asF64) {rounds later : List Answers}
    {answers : Answers} {json : Json} {t : Decimal}
    (hanswer : answers (.estimatesmartfee 18 "ECONOMICAL") =
      feeAnswer asF64 "feerate" (.ok json))
    (hjson : StatesRate json "feerate" n)
    (hlater : ∀ a ∈ later, a (.estimatesmartfee 18 "ECONOMICAL") = .error)
    (ht : Shortest (fundingFeeRate (pollRounds (rounds ++ [answers] ++ later))) t) :
    ∃ thousandths : ℕ, t.value = thousandths / 1000 ∧
      |(thousandths : ℤ) - clamped n| ≤ 2 := by
  have hbucket := bucket_stated hparse .nonAnchorChannelFee rounds (by decide) hanswer hjson hlater
  generalize pollRounds (rounds ++ [answers] ++ later) = fees at ht hbucket
  refine ⟨4 * (getEstSatPer1000Weight fees .nonAnchorChannelFee).toNat, ?_, ?_⟩
  · rw [fundingFeeRate_text ht]
    norm_num
  · push_cast
    exact hbucket

/-- There is a shortest text for the rate, of 17 digits at most. -/
theorem fundingFeeRate_shortest (fees : Fees) : ∃ t, Shortest (fundingFeeRate fees) t := by
  have hlt := (getEstSatPer1000Weight fees .nonAnchorChannelFee).toNat_lt
  obtain ⟨t, ht⟩ :=
    exists_shortest ⟨4 * (getEstSatPer1000Weight fees .nonAnchorChannelFee).toNat, 3⟩
  refine ⟨t, ?_⟩
  rw [fundingFeeRate, rounded_natCast (by omega)]
  convert ht using 2
  rw [Decimal.value]
  push_cast
  ring

/-- A reader that divides the digits by a power of ten, both as floats. -/
def asQuotient (n : JsonNumber) : ℚ := rounded (rounded n.digits / rounded (10 ^ n.decimals))

/-- Dividing two doubles reads a decimal to within what the law asks. -/
theorem asQuotient_nearest : ReadsNearest asQuotient := by
  intro digits decimals hdigits hdecimals
  have hten := rounded_natCast hdecimals
  push_cast at hten
  rw [asQuotient]
  show rounded (rounded ((digits : ℤ) : ℚ) / rounded (10 ^ decimals)) = _
  rw [Int.cast_natCast, rounded_natCast hdigits, hten]

/-- An answer of 0.00012345 bitcoin, and a failed call after it. -/
theorem funding_rate_stated_once : ∃ t : Decimal, ∃ thousandths : ℕ,
    t.value = thousandths / 1000 ∧ |(thousandths : ℤ) - 12345| ≤ 2 := by
  obtain ⟨t, ht⟩ := fundingFeeRate_shortest (pollRounds
    ([] ++ [fun _ => feeAnswer asQuotient "feerate" (.ok (.object [("feerate", .number ⟨12345, 8⟩)]))]
      ++ [fun _ => .error]))
  exact ⟨t, funding_rate_stated (n := 12345) asQuotient_nearest rfl ⟨⟨12345, 8, rfl, le_refl 8, rfl⟩, by decide⟩
    (fun a ha => by rw [List.mem_singleton.mp ha]) ht⟩

end FeeRates
