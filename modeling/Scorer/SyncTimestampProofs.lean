import Mathlib

/-! # The timestamp in `rapid_sync_state`

    The file holds a `u32` in decimal.  It is emptied and rewritten in place, so a
    reader may find any beginning of the text; what it cannot parse it takes for 0.

    * `lastSync` is the value that a sync starts from;
    * `lastSync_printed`: a text that was written whole is read back;
    * `lastSync_torn`: a beginning of it gives no larger value. -/

namespace SyncTimestamp

/-- A file as `read_to_string` finds it. -/
inductive FileText where
  | utf8 (content : List Char)
  | notUtf8
  deriving DecidableEq, Repr

/-- `char::is_whitespace`, the characters with the property `White_Space`. -/
def isWhitespace (c : Char) : Bool :=
  let n := c.toNat
  (9 ≤ n && n ≤ 13) || n == 0x20 || n == 0x85 || n == 0xA0 || n == 0x1680 ||
    (0x2000 ≤ n && n ≤ 0x200A) || n == 0x2028 || n == 0x2029 || n == 0x202F ||
    n == 0x205F || n == 0x3000

/-- `str::trim`. -/
def trim (content : List Char) : List Char :=
  ((content.dropWhile isWhitespace).reverse.dropWhile isWhitespace).reverse

/-- The digits of `u32::from_str`, with the value so far. -/
def parseDigits : List Char → Nat → Option Nat
  | [], value => some value
  | c :: rest, value =>
      if c.isDigit then
        let value' := 10 * value + (c.toNat - '0'.toNat)
        if value' < 2 ^ 32 then parseDigits rest value' else none
      else none

/-- `str::parse::<u32>`: a `+` may stand before the digits. -/
def parseU32 (content : List Char) : Option UInt32 :=
  let digits := if content.head? = some '+' then content.tail else content
  if digits = [] then none else (parseDigits digits 0).map UInt32.ofNat

/-- The errors of `load_last_sync_timestamp`. -/
inductive LoadError where
  | read
  | invalidData
  deriving DecidableEq, Repr

/-- `load_last_sync_timestamp`; `readFails` is an I/O error other than absence. -/
def loadLastSyncTimestamp (readFails : Bool) : Option FileText → Except LoadError UInt32
  | none => .ok 0
  | some (.utf8 content) =>
      if readFails then .error .read
      else match parseU32 (trim content) with
        | some timestamp => .ok timestamp
        | none => .error .invalidData
  | some .notUtf8 => .error .read

/-- `self.load_last_sync_timestamp().await.unwrap_or(0)`. -/
def lastSync (readFails : Bool) (file : Option FileText) : UInt32 :=
  match loadLastSyncTimestamp readFails file with
  | .ok timestamp => timestamp
  | .error _ => 0

/-- `timestamp.to_string()`. -/
def printed (timestamp : UInt32) : List Char := Nat.toDigits 10 timestamp.toNat

/-- The file after the first `n` characters of the timestamp were written. -/
def torn (timestamp : UInt32) (n : Nat) : FileText := .utf8 ((printed timestamp).take n)

/-! ## Parsing what was printed -/

private theorem digit_not_whitespace {c : Char} (h : c.isDigit) : isWhitespace c = false := by
  have hrange : 48 ≤ c.toNat ∧ c.toNat ≤ 57 := by
    simp only [Char.isDigit, Bool.and_eq_true, decide_eq_true_eq] at h
    exact ⟨h.1, h.2⟩
  rw [isWhitespace]
  simp only [Bool.or_eq_false_iff, Bool.and_eq_false_iff, decide_eq_false_iff_not,
    beq_eq_false_iff_ne]
  omega

private theorem dropWhile_digits {content : List Char} (h : ∀ c ∈ content, c.isDigit) :
    content.dropWhile isWhitespace = content := by
  cases content with
  | nil => rfl
  | cons c rest =>
      rw [List.dropWhile_cons, digit_not_whitespace (h c List.mem_cons_self)]
      rfl

theorem trim_digits {content : List Char} (h : ∀ c ∈ content, c.isDigit) :
    trim content = content := by
  have hrev : ∀ c ∈ content.reverse, c.isDigit := fun c hc => h c (List.mem_reverse.mp hc)
  rw [trim, dropWhile_digits h, dropWhile_digits hrev, List.reverse_reverse]

/-- The digits of a number that fits are parsed to it. -/
theorem parseDigits_ofDigitChars {content : List Char} (h : ∀ c ∈ content, c.isDigit) :
    ∀ value, Nat.ofDigitChars 10 content value < 2 ^ 32 →
      parseDigits content value = some (Nat.ofDigitChars 10 content value) := by
  induction content with
  | nil => exact fun value _ => rfl
  | cons c rest ih =>
      intro value hlt
      rw [Nat.ofDigitChars_cons] at hlt ⊢
      have hle : 10 * value + (c.toNat - '0'.toNat)
          ≤ Nat.ofDigitChars 10 rest (10 * value + (c.toNat - '0'.toNat)) := by
        rw [Nat.ofDigitChars_eq_ofDigitChars_zero]
        have hpow : 1 ≤ 10 ^ rest.length := Nat.one_le_pow _ _ (by omega)
        exact Nat.le_add_right_of_le (Nat.le_mul_of_pos_left _ hpow)
      rw [parseDigits, if_pos (h c List.mem_cons_self)]
      simp only
      rw [if_pos (Nat.lt_of_le_of_lt hle hlt)]
      exact ih (fun d hd => h d (List.mem_cons_of_mem _ hd)) _ hlt

/-- What is printed of a number is digits. -/
theorem toDigits_isDigit (n : Nat) : ∀ c ∈ Nat.toDigits 10 n, c.isDigit :=
  fun _ hc => Nat.isDigit_of_mem_toDigits (by omega) (Nat.le_refl _) hc

/-- A printed number is parsed, if it is a `u32`. -/
theorem parseU32_toDigits {n : Nat} (h : n < 2 ^ 32) :
    parseU32 (Nat.toDigits 10 n) = some (UInt32.ofNat n) := by
  have hdigits := toDigits_isDigit n
  have hplus : (Nat.toDigits 10 n).head? ≠ some '+' := by
    intro hhead
    exact absurd (hdigits '+' (List.mem_of_mem_head? hhead)) (by decide)
  rw [parseU32]
  simp only [if_neg hplus, if_neg Nat.toDigits_ne_nil]
  rw [parseDigits_ofDigitChars hdigits 0 (by rwa [Nat.ofDigitChars_ten_toDigits]),
    Nat.ofDigitChars_ten_toDigits]
  rfl

theorem lastSync_toDigits {n : Nat} (h : n < 2 ^ 32) :
    lastSync false (some (.utf8 (Nat.toDigits 10 n))) = UInt32.ofNat n := by
  rw [lastSync, loadLastSyncTimestamp, trim_digits (toDigits_isDigit n), parseU32_toDigits h]
  rfl

/-- A beginning of a decimal text is empty or the text of a smaller number. -/
theorem take_toDigits (n k : Nat) :
    (Nat.toDigits 10 n).take k = [] ∨
      ∃ m ≤ n, (Nat.toDigits 10 n).take k = Nat.toDigits 10 m := by
  induction n using Nat.strongRecOn with
  | ind n ih =>
      by_cases hk : (Nat.toDigits 10 n).length ≤ k
      · exact Or.inr ⟨n, Nat.le_refl _, List.take_of_length_le hk⟩
      rw [Nat.toDigits_eq_if (by omega)] at hk ⊢
      split at hk
      · -- one digit: nothing of it was written
        rename_i hlt
        rw [if_pos hlt, List.length_singleton] at *
        obtain rfl : k = 0 := by omega
        exact Or.inl rfl
      · rename_i hge
        rw [if_neg hge]
        rw [List.length_append, List.length_singleton] at hk
        rw [List.take_append_of_le_length (by omega)]
        refine (ih (n / 10) (by omega)).imp_right ?_
        rintro ⟨m, hm, htake⟩
        exact ⟨m, Nat.le_trans hm (Nat.div_le_self _ _), htake⟩

/-- **READ BACK**: a timestamp that was written whole is the value used. -/
theorem lastSync_printed (timestamp : UInt32) :
    lastSync false (some (.utf8 (printed timestamp))) = timestamp := by
  rw [printed, lastSync_toDigits timestamp.toNat_lt, UInt32.ofNat_toNat]

/-- **TORN WRITE**: a beginning of a timestamp gives no larger value. -/
theorem lastSync_torn (readFails : Bool) (timestamp : UInt32) (n : Nat) :
    lastSync readFails (some (torn timestamp n)) ≤ timestamp := by
  cases readFails with
  | true => exact UInt32.zero_le
  | false =>
      rw [torn, printed]
      rcases take_toDigits timestamp.toNat n with hnil | ⟨m, hm, htake⟩
      · rw [hnil]
        exact UInt32.zero_le
      · rw [htake, lastSync_toDigits (Nat.lt_of_le_of_lt hm timestamp.toNat_lt),
          UInt32.le_iff_toNat_le]
        rw [UInt32.toNat_ofNat_of_lt' (Nat.lt_of_le_of_lt hm timestamp.toNat_lt)]
        exact hm

end SyncTimestamp
