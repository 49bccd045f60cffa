import Mathlib

/-! # Readers over a stream of bytes

    A reader takes bytes off the front of a stream and returns a value, or fails.
    The end of a file is the end of the stream, so a truncated file is a prefix of
    the stream that was written.

    * `Sound r`: what `r` returns depends on the bytes it takes only, and it never
      panics;
    * `Reads r w a`: `r` takes exactly the bytes `w` and returns `a`, whatever
      follows them;
    * `prefix_rejected`: a sound reader that reads `w` rejects every proper prefix
      of `w`. -/

namespace ByteReader

/-- How a read fails: with an error of the format, or by a panic of the reader. -/
inductive Failure where
  | shortRead
  | invalidValue
  | unknownRequiredFeature
  | panicked
  deriving DecidableEq, Repr

/-- A reader: the bytes it leaves are the state. -/
abbrev Reader (α : Type) := StateT (List UInt8) (Except Failure) α

variable {α β : Type}

/-- A failure ends the read. -/
def fail (e : Failure) : Reader α := fun _ => .error e

/-- `Option::unwrap`. -/
def unwrap : Option α → Reader α
  | some a => pure a
  | none => fail .panicked

/-- The result does not depend on the bytes after those taken, and no input makes the
    reader panic. -/
structure Sound (r : Reader α) : Prop where
  stable : ∀ s a rest more, r.run s = .ok (a, rest) →
    r.run (s ++ more) = .ok (a, rest ++ more)
  noPanic : ∀ s, r.run s ≠ .error .panicked

/-- `r` takes exactly `w` and returns `a`. -/
def Reads (r : Reader α) (w : List UInt8) (a : α) : Prop :=
  ∀ more, r.run (w ++ more) = .ok (a, more)

/-- **TRUNCATION**: no proper prefix of what a sound reader takes is enough. -/
theorem prefix_rejected {r : Reader α} {w p : List UInt8} {a : α} (hr : Sound r)
    (hw : Reads r w a) (hp : p <+: w) (hne : p ≠ w) :
    ∃ e, r.run p = .error e ∧ e ≠ .panicked := by
  obtain ⟨q, rfl⟩ := hp
  cases hrun : r.run p with
  | error e => exact ⟨e, rfl, fun he => hr.noPanic p (he ▸ hrun)⟩
  | ok out =>
      obtain ⟨b, rest⟩ := out
      -- the rest of the bytes would be left over after the whole of them
      have hlong := hr.stable p b rest q hrun
      have hall := hw []
      rw [List.append_nil] at hall
      have hnil : rest ++ q = [] := (Prod.mk.inj (Except.ok.inj (hlong.symm.trans hall))).2
      have hq : q = [] := (List.append_eq_nil_iff.mp hnil).2
      exact absurd (by rw [hq, List.append_nil]) hne

/-! ## Sequencing -/

/-- A reader that succeeds hands over to the next. -/
theorem bind_run_ok {x : Reader α} {f : α → Reader β} {s s' : List UInt8} {a : α}
    (hx : x.run s = .ok (a, s')) : (x >>= f).run s = (f a).run s' := by
  rw [StateT.run_bind, hx]
  rfl

/-- One that fails ends the reading. -/
theorem bind_run_error {x : Reader α} {f : α → Reader β} {s : List UInt8} {e : Failure}
    (hx : x.run s = .error e) : (x >>= f).run s = .error e := by
  rw [StateT.run_bind, hx]
  rfl

/-- A sequence succeeds through both of its parts. -/
theorem bind_run_eq_ok {x : Reader α} {f : α → Reader β} {s : List UInt8}
    {out : β × List UInt8} (h : (x >>= f).run s = .ok out) :
    ∃ a s', x.run s = .ok (a, s') ∧ (f a).run s' = .ok out := by
  cases hx : x.run s with
  | error e =>
      rw [bind_run_error hx] at h
      cases h
  | ok mid =>
      rw [bind_run_ok hx] at h
      exact ⟨mid.1, mid.2, rfl, h⟩

theorem sound_pure (a : α) : Sound (pure a : Reader α) where
  stable := by
    intro s b rest more h
    obtain ⟨rfl, rfl⟩ := Prod.mk.inj (Except.ok.inj h)
    rfl
  noPanic := fun _ h => nomatch h

/-- An error other than a panic is sound. -/
theorem sound_fail {e : Failure} (he : e ≠ .panicked) : Sound (fail e : Reader α) where
  stable := fun _ _ _ _ h => nomatch h
  noPanic := fun _ h => he (Except.error.inj h)

/-- Sound readers in a row are sound. -/
theorem sound_bind {x : Reader α} {f : α → Reader β} (hx : Sound x)
    (hf : ∀ a, Sound (f a)) : Sound (x >>= f) where
  stable := by
    intro s b rest more h
    obtain ⟨a, s', hxs, hfs⟩ := bind_run_eq_ok h
    rw [bind_run_ok (hx.stable s a s' more hxs)]
    exact (hf a).stable s' b rest more hfs
  noPanic := by
    intro s h
    cases hxs : x.run s with
    | error e =>
        rw [bind_run_error hxs] at h
        obtain rfl := Except.error.inj h
        exact hx.noPanic s hxs
    | ok mid =>
        rw [bind_run_ok hxs] at h
        exact (hf mid.1).noPanic mid.2 h

/-- An unwrap after a read that leaves nothing empty. -/
theorem sound_unwrap {x : Reader α} {f : α → Option β} (hx : Sound x)
    (hall : ∀ s a rest, x.run s = .ok (a, rest) → ∃ b, f a = some b) :
    Sound (x >>= fun a => unwrap (f a)) where
  stable := by
    intro s b rest more h
    obtain ⟨a, s', ha, h⟩ := bind_run_eq_ok h
    obtain ⟨b', hb⟩ := hall s a s' ha
    rw [hb] at h
    rw [bind_run_ok (hx.stable s a s' more ha), hb]
    exact (sound_pure b').stable s' b rest more h
  noPanic := by
    intro s h
    cases ha : x.run s with
    | error e =>
        rw [bind_run_error ha] at h
        obtain rfl := Except.error.inj h
        exact hx.noPanic s ha
    | ok out =>
        obtain ⟨b, hb⟩ := hall s out.1 out.2 ha
        rw [bind_run_ok ha, hb] at h
        cases h

theorem sound_ite {c : Prop} [Decidable c] {x y : Reader α} (hx : Sound x)
    (hy : Sound y) : Sound (if c then x else y) := by
  by_cases hc : c
  · rwa [if_pos hc]
  · rwa [if_neg hc]

/-- A value is read from no bytes. -/
theorem reads_pure (a : α) : Reads (pure a) [] a := fun _ => rfl

/-- What two readers read in a row is read in a row. -/
theorem reads_bind {x : Reader α} {f : α → Reader β} {w w' : List UInt8} {a : α} {b : β}
    (hx : Reads x w a) (hf : Reads (f a) w' b) : Reads (x >>= f) (w ++ w') b := by
  intro more
  rw [List.append_assoc, bind_run_ok (hx (w' ++ more))]
  exact hf more

/-- The last step of a sequence often takes nothing. -/
theorem reads_bind_last {x : Reader α} {f : α → Reader β} {w : List UInt8} {a : α} {b : β}
    (hx : Reads x w a) (hf : Reads (f a) [] b) : Reads (x >>= f) w b := by
  have h := reads_bind hx hf
  rwa [List.append_nil] at h

/-! ## Bytes and integers -/

/-- `read_exact` over a buffer of `n` bytes. -/
def readExact (n : Nat) : Reader (List UInt8) := fun s =>
  if s.length < n then .error .shortRead else .ok (s.take n, s.drop n)

theorem readExact_sound (n : Nat) : Sound (readExact n) where
  stable := by
    intro s a rest more h
    simp only [readExact, StateT.run] at h ⊢
    by_cases hlt : s.length < n
    · rw [if_pos hlt] at h
      cases h
    · rw [if_neg hlt] at h
      obtain ⟨rfl, rfl⟩ := Prod.mk.inj (Except.ok.inj h)
      rw [if_neg (by rw [List.length_append]; omega),
        List.take_append_of_le_length (by omega), List.drop_append_of_le_length (by omega)]
  noPanic := by
    intro s h
    simp only [readExact, StateT.run] at h
    split at h <;> cases h

theorem readExact_reads (w : List UInt8) : Reads (readExact w.length) w w := by
  intro more
  simp only [readExact, StateT.run]
  rw [if_neg (by rw [List.length_append]; omega), List.take_left, List.drop_left]

/-- The value of a big-endian number. -/
def ofBytes (bytes : List UInt8) : Nat :=
  bytes.foldl (fun acc b => acc * 256 + b.toNat) 0

/-- The last `width` bytes of a number, big-endian. -/
def toBytes : Nat → Nat → List UInt8
  | 0, _ => []
  | width + 1, n => toBytes width (n / 256) ++ [UInt8.ofNat n]

@[simp] theorem toBytes_length (width n : Nat) : (toBytes width n).length = width := by
  induction width generalizing n with
  | zero => rfl
  | succ width ih => simp [toBytes, ih]

/-- An integer that fits is read back. -/
theorem ofBytes_toBytes {width n : Nat} (h : n < 256 ^ width) :
    ofBytes (toBytes width n) = n := by
  induction width generalizing n with
  | zero =>
      rw [Nat.pow_zero] at h
      obtain rfl : n = 0 := by omega
      rfl
  | succ width ih =>
      have hdiv : n / 256 < 256 ^ width := by
        rw [Nat.div_lt_iff_lt_mul (by decide)]
        rwa [Nat.pow_succ] at h
      have hhigh := ih hdiv
      unfold ofBytes at hhigh
      rw [toBytes, ofBytes, List.foldl_append, hhigh]
      simp only [List.foldl_cons, List.foldl_nil, UInt8.toNat_ofNat']
      omega

/-- An unsigned integer of `width` bytes. -/
def readUInt (width : Nat) : Reader Nat := do
  let bytes ← readExact width
  pure (ofBytes bytes)

theorem readUInt_sound (width : Nat) : Sound (readUInt width) :=
  sound_bind (readExact_sound width) fun _ => sound_pure _

theorem readUInt_reads {width n : Nat} (h : n < 256 ^ width) :
    Reads (readUInt width) (toBytes width n) n := by
  have hr := readExact_reads (toBytes width n)
  rw [toBytes_length] at hr
  refine reads_bind_last hr ?_
  rw [ofBytes_toBytes h]
  exact reads_pure n

/-- A number takes its width. -/
theorem readUInt_length {width n : Nat} {s rest : List UInt8}
    (h : (readUInt width).run s = .ok (n, rest)) : rest.length + width = s.length := by
  obtain ⟨bytes, s', hb, hp⟩ := bind_run_eq_ok h
  obtain ⟨-, rfl⟩ := Prod.mk.inj (Except.ok.inj hp)
  simp only [readExact, StateT.run] at hb
  by_cases hlt : s.length < width
  · rw [if_pos hlt] at hb
    cases hb
  · rw [if_neg hlt] at hb
    obtain ⟨-, rfl⟩ := Prod.mk.inj (Except.ok.inj hb)
    rw [List.length_drop]
    omega

/-! ## Readers over a part of the stream -/

/-- Run `r` over at most `len` bytes (`FixedLengthReader`), and tell how many of them
    it has left (`bytes_remain`). -/
def withFixedLength (len : Nat) (r : Reader α) : Reader (α × Nat) := fun s =>
  match r.run (s.take len) with
  | .error e => .error e
  | .ok (a, rest) =>
      let used := (s.take len).length - rest.length
      .ok ((a, len - used), s.drop used)

/-- `eat_remaining`, `n` bytes before the end of the part. -/
def eatRemaining (n : Nat) : Reader Unit := do
  let _ ← readExact n
  pure ()

/-- What a reader of limited length did, seen from outside. -/
theorem withFixedLength_run {r : Reader α} {len : Nat} {s rest : List UInt8}
    {out : α × Nat} (h : (withFixedLength len r).run s = .ok (out, rest)) :
    ∃ left, r.run (s.take len) = .ok (out.1, left) ∧
      out.2 = len - ((s.take len).length - left.length) ∧
      rest = s.drop ((s.take len).length - left.length) := by
  unfold withFixedLength at h
  simp only [StateT.run] at h
  split at h
  · cases h
  · rename_i a left hr
    obtain ⟨rfl, rfl⟩ := Prod.mk.inj (Except.ok.inj h)
    exact ⟨left, hr, rfl, rfl⟩

theorem withFixedLength_sound {r : Reader α} (hr : Sound r) (len : Nat) :
    Sound (withFixedLength len r) where
  stable := by
    intro s out rest more h
    obtain ⟨left, hrun, hout, rfl⟩ := withFixedLength_run h
    have hmore := hr.stable _ _ _ (more.take (len - s.length)) hrun
    rw [← List.take_append] at hmore
    -- more bytes behind the value change nothing of what the inner reader uses
    have hused : ((s ++ more).take len).length
          - (left ++ more.take (len - s.length)).length
        = (s.take len).length - left.length := by
      rw [List.take_append, List.length_append, List.length_append]
      omega
    simp only [withFixedLength, StateT.run] at hmore ⊢
    rw [hmore]
    simp only [hused]
    have hle : (s.take len).length ≤ s.length := by
      rw [List.length_take]
      omega
    rw [List.drop_append_of_le_length (by omega), ← hout]
  noPanic := by
    intro s h
    unfold withFixedLength at h
    simp only [StateT.run] at h
    split at h
    · rename_i e he
      obtain rfl := Except.error.inj h
      exact hr.noPanic _ he
    · cases h

/-- A reader that stays within the limit reads the same. -/
theorem withFixedLength_reads {r : Reader α} {len : Nat} {w : List UInt8} {a : α}
    (hr : Reads r w a) (hlen : w.length ≤ len) :
    Reads (withFixedLength len r) w (a, len - w.length) := by
  intro more
  have htake : (w ++ more).take len = w ++ more.take (len - w.length) := by
    rw [List.take_append, List.take_of_length_le hlen]
  have hrun := hr (more.take (len - w.length))
  rw [← htake] at hrun
  simp only [withFixedLength, StateT.run] at hrun ⊢
  rw [hrun]
  have hused : ((w ++ more).take len).length - (more.take (len - w.length)).length
      = w.length := by
    rw [htake, List.length_append]
    omega
  simp only [hused, List.drop_left]

theorem eatRemaining_sound (n : Nat) : Sound (eatRemaining n) :=
  sound_bind (readExact_sound n) fun _ => sound_pure _

end ByteReader
