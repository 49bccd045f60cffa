import Scorer.LengthPrefixProofs
import Mathlib.Data.List.Pairwise

/-! # Records as TLV streams

    A record is a stream of fields, each a type, a length and a value, behind the
    length of the whole.  Every field here is required.

    A stream ends where its bytes end, between two fields, so a truncated stream
    may look whole.  Two things catch it: a required field that has not been seen,
    and the length of the record, which the reader takes to its end.

    * `readTlvFields_sound`, `readTlvFields_reads`: records;
    * `decodeTlvStream_complete`: after a stream has been read every required field
      has been stored. -/

namespace TlvStream

open ByteReader LengthPrefix

variable {σ : Type}

/-! ## Records -/

/-- A required field of a record: its type number, and the reader that stores its
    value among those read so far. -/
structure TlvField (σ : Type) where
  type : Nat
  read : σ → Reader σ

/-- A field whose value is read by `read` and put in its place by `store`. -/
def required {α : Type} (type : Nat) (read : Reader α) (store : σ → α → σ) : TlvField σ where
  type := type
  read := fun st => do
    let v ← read
    pure (store st v)

/-- The type lies after the last one seen. -/
def After (last : Option Nat) (type : Nat) : Prop := ∀ t, last = some t → t < type

instance afterDecidable : (last : Option Nat) → (type : Nat) → Decidable (After last type)
  | none, _ => .isTrue fun _ h => nomatch h
  | some t, type => decidable_of_iff (t < type) (by simp [After])

/-- A type that does not rise, or that leaves out a required one before it. -/
def OutOfOrder (fields : List (TlvField σ)) (last : Option Nat) (type : Nat) : Prop :=
  ¬ After last type ∨ ∃ f ∈ fields, After last f.type ∧ f.type < type

instance outOfOrderDecidable (fields : List (TlvField σ)) (last : Option Nat)
    (type : Nat) : Decidable (OutOfOrder fields last type) :=
  inferInstanceAs (Decidable (_ ∨ _))

/-- The value of a field: a known field is stored and must take all of its length, an
    unknown one is skipped when its type is odd. -/
def readTlvValue (fields : List (TlvField σ)) (type len : Nat) (st : σ) : Reader σ :=
  match fields.find? fun f => f.type = type with
  | some f => do
      let out ← withFixedLength len (f.read st)
      if out.2 = 0 then pure out.1
      else do
        eatRemaining out.2
        fail .invalidValue
  | none =>
      if type % 2 = 0 then fail .unknownRequiredFeature
      else do
        eatRemaining len
        pure st

private theorem eatRemaining_length {n : Nat} {s rest : List UInt8} {u : Unit}
    (h : (eatRemaining n).run s = .ok (u, rest)) : rest.length ≤ s.length := by
  obtain ⟨bytes, s', hb, hp⟩ := bind_run_eq_ok h
  obtain ⟨-, rfl⟩ := Prod.mk.inj (Except.ok.inj hp)
  simp only [readExact, StateT.run] at hb
  split at hb
  · cases hb
  · obtain ⟨-, rfl⟩ := Prod.mk.inj (Except.ok.inj hb)
    rw [List.length_drop]
    omega

theorem readTlvValue_length {fields : List (TlvField σ)} {type len : Nat} {st st' : σ}
    {s rest : List UInt8}
    (h : (readTlvValue fields type len st).run s = .ok (st', rest)) :
    rest.length ≤ s.length := by
  rw [readTlvValue] at h
  split at h
  · obtain ⟨out, s', hout, h⟩ := bind_run_eq_ok h
    obtain ⟨left, -, -, rfl⟩ := withFixedLength_run hout
    split at h
    · obtain ⟨-, rfl⟩ := Prod.mk.inj (Except.ok.inj h)
      rw [List.length_drop]
      omega
    · obtain ⟨_, _, -, h⟩ := bind_run_eq_ok h
      cases h
  · split at h
    · cases h
    · obtain ⟨_, s', hs, h⟩ := bind_run_eq_ok h
      obtain ⟨-, rfl⟩ := Prod.mk.inj (Except.ok.inj h)
      exact eatRemaining_length hs

/-- `decode_tlv_stream!`: field after field, to the end of the bytes. -/
def decodeTlvStream (fields : List (TlvField σ)) (last : Option Nat) (st : σ)
    (s : List UInt8) : Except Failure σ :=
  match s with
  | [] =>
      -- the end of the stream: every required type must have been seen
      if ∃ f ∈ fields, After last f.type then .error .invalidValue else .ok st
  | b :: bytes =>
      match _ : readBigSize.run (b :: bytes) with
      | .error e => .error e
      | .ok (type, s1) =>
          if OutOfOrder fields last type then .error .invalidValue
          else
            match _ : readBigSize.run s1 with
            | .error e => .error e
            | .ok (len, s2) =>
                match _ : (readTlvValue fields type len st).run s2 with
                | .error e => .error e
                | .ok (st', s3) => decodeTlvStream fields (some type) st' s3
termination_by s.length
decreasing_by
  have h1 := readBigSize_length ‹readBigSize.run (b :: bytes) = _›
  have h2 := readBigSize_length ‹readBigSize.run s1 = _›
  have h3 := readTlvValue_length ‹(readTlvValue fields type len st).run s2 = _›
  omega

/-- `read_tlv_fields!`: the length of the record, its stream, and the check that all
    of it was there. -/
def readTlvFields (fields : List (TlvField σ)) (st : σ) : Reader σ := do
  let tlvLen ← readBigSize
  fun s =>
    match decodeTlvStream fields none st (s.take tlvLen) with
    | .error e => .error e
    | .ok st' => if s.length < tlvLen then .error .shortRead else .ok (st', s.drop tlvLen)

/-- One field of a record. -/
def writeTlv (type : Nat) (value : List UInt8) : List UInt8 :=
  writeBigSize type ++ (writeBigSize value.length ++ value)

/-- `write_tlv_fields!`: the stream behind its length. -/
def writeTlvFields (tlvs : List (Nat × List UInt8)) : List UInt8 :=
  let stream := tlvs.flatMap fun f => writeTlv f.1 f.2
  writeBigSize stream.length ++ stream

theorem writeTlv_length (type : Nat) (value : List UInt8) :
    (writeTlv type value).length ≤ 18 + value.length := by
  have h1 := writeBigSize_length type
  have h2 := writeBigSize_length value.length
  simp only [writeTlv, List.length_append]
  omega

/-! ## What one field does -/

section

variable {α : Type} {type : Nat} {read : Reader α} {store : σ → α → σ}

@[simp] theorem required_type : (required type read store).type = type := rfl

theorem required_sound (hr : Sound read) (st : σ) :
    Sound ((required type read store).read st) :=
  sound_bind hr fun _ => sound_pure _

theorem required_reads {w : List UInt8} {v : α} (hr : Reads read w v) (st : σ) :
    Reads ((required type read store).read st) w (store st v) :=
  reads_bind_last hr (reads_pure _)

/-- What it does, it does by storing a value. -/
theorem required_run {st st' : σ} {s rest : List UInt8}
    (h : ((required type read store).read st).run s = .ok (st', rest)) :
    ∃ v, st' = store st v := by
  obtain ⟨v, s', -, hp⟩ := bind_run_eq_ok h
  obtain ⟨rfl, -⟩ := Prod.mk.inj (Except.ok.inj hp)
  exact ⟨v, rfl⟩

end

variable {fields : List (TlvField σ)}

/-- One round of the loop: a type in order, a length and a value. -/
theorem decodeTlvStream_step {last : Option Nat} {st st' : σ} {type len : Nat}
    {s s1 s2 s3 : List UInt8} (htype : readBigSize.run s = .ok (type, s1))
    (horder : ¬ OutOfOrder fields last type) (hlen : readBigSize.run s1 = .ok (len, s2))
    (hval : (readTlvValue fields type len st).run s2 = .ok (st', s3)) :
    decodeTlvStream fields last st s = decodeTlvStream fields (some type) st' s3 := by
  cases s with
  | nil => cases htype
  | cons b bytes =>
      rw [decodeTlvStream]
      split
      · rename_i e he
        cases he.symm.trans htype
      · rename_i type' s1' h1
        obtain ⟨rfl, rfl⟩ := Prod.mk.inj (Except.ok.inj (h1.symm.trans htype))
        rw [if_neg horder]
        split
        · rename_i e he
          cases he.symm.trans hlen
        · rename_i len' s2' h2
          obtain ⟨rfl, rfl⟩ := Prod.mk.inj (Except.ok.inj (h2.symm.trans hlen))
          split
          · rename_i e he
            cases he.symm.trans hval
          · rename_i st1 s3' h3
            obtain ⟨rfl, rfl⟩ := Prod.mk.inj (Except.ok.inj (h3.symm.trans hval))
            rfl

/-- The rounds that a successful stream goes through. -/
theorem decodeTlvStream_cons {last : Option Nat} {st out : σ} {b : UInt8}
    {bytes : List UInt8} (h : decodeTlvStream fields last st (b :: bytes) = .ok out) :
    ∃ type s1 len s2 st' s3, ¬ OutOfOrder fields last type ∧
      readBigSize.run (b :: bytes) = .ok (type, s1) ∧ readBigSize.run s1 = .ok (len, s2) ∧
      (readTlvValue fields type len st).run s2 = .ok (st', s3) ∧
      decodeTlvStream fields (some type) st' s3 = .ok out := by
  rw [decodeTlvStream] at h
  split at h
  · cases h
  · rename_i type s1 h1
    split at h
    · cases h
    · rename_i horder
      split at h
      · cases h
      · rename_i len s2 h2
        split at h
        · cases h
        · rename_i st' s3 h3
          exact ⟨type, s1, len, s2, st', s3, horder, h1, h2, h3, h⟩

/-- The value that a round has stored, and by which field. -/
theorem readTlvValue_cases {type len : Nat} {st st' : σ} {s rest : List UInt8}
    (h : (readTlvValue fields type len st).run s = .ok (st', rest)) :
    (∃ f ∈ fields, fields.find? (fun f => f.type = type) = some f ∧
      ∃ s1 s2, (f.read st).run s1 = .ok (st', s2)) ∨
    (fields.find? (fun f => f.type = type) = none ∧ st' = st) := by
  rw [readTlvValue] at h
  split at h
  · rename_i f hf
    obtain ⟨out, s', hout, h⟩ := bind_run_eq_ok h
    obtain ⟨left, hrun, -, -⟩ := withFixedLength_run hout
    split at h
    · obtain ⟨rfl, -⟩ := Prod.mk.inj (Except.ok.inj h)
      exact Or.inl ⟨f, List.mem_of_find?_eq_some hf, hf, _, _, hrun⟩
    · obtain ⟨_, _, -, h⟩ := bind_run_eq_ok h
      cases h
  · rename_i hnone
    split at h
    · cases h
    · obtain ⟨_, s', -, h⟩ := bind_run_eq_ok h
      obtain ⟨rfl, -⟩ := Prod.mk.inj (Except.ok.inj h)
      exact Or.inr ⟨hnone, rfl⟩

theorem readTlvValue_sound (hf : ∀ f ∈ fields, ∀ st, Sound (f.read st)) (type len : Nat)
    (st : σ) : Sound (readTlvValue fields type len st) := by
  rw [readTlvValue]
  split
  · rename_i f hfind
    refine sound_bind
      (withFixedLength_sound (hf f (List.mem_of_find?_eq_some hfind) st) len) fun out => ?_
    exact sound_ite (sound_pure _)
      (sound_bind (eatRemaining_sound _) fun _ => sound_fail nofun)
  · exact sound_ite (sound_fail nofun) (sound_bind (eatRemaining_sound _) fun _ => sound_pure _)

/-! ## Whole streams -/

/-- The type numbers of a record rise. -/
def Rising (fields : List (TlvField σ)) : Prop :=
  fields.Pairwise fun f g => f.type < g.type

/-- With rising types a type belongs to one field. -/
theorem find_rising {f : TlvField σ} (hrise : Rising fields) (hf : f ∈ fields) :
    fields.find? (fun g => g.type = f.type) = some f := by
  induction fields with
  | nil => cases hf
  | cons g rest ih =>
      obtain ⟨hg, hrest⟩ := List.pairwise_cons.mp hrise
      rcases List.mem_cons.mp hf with rfl | hmem
      · simp
      · have hlt := hg f hmem
        rw [List.find?_cons_of_neg (by simp; omega)]
        exact ih hrest hmem

/-- **COMPLETENESS**: after a stream has been read, every required field has been
    stored: a type that is left out is noticed at the next one or at the end. -/
theorem decodeTlvStream_complete (Stored : TlvField σ → σ → Prop) (hrise : Rising fields)
    (hstore : ∀ f ∈ fields, ∀ st s st' rest, (f.read st).run s = .ok (st', rest) →
      Stored f st' ∧ ∀ g ∈ fields, Stored g st → Stored g st')
    {last : Option Nat} {st out : σ} {s : List UInt8}
    (h : decodeTlvStream fields last st s = .ok out) {f : TlvField σ} (hf : f ∈ fields)
    (hpre : After last f.type ∨ Stored f st) : Stored f out := by
  -- on the length of the stream: a record takes at least two bytes
  induction hn : s.length using Nat.strongRecOn generalizing s last st with
  | _ n ih =>
      cases s with
      | nil =>
          rw [decodeTlvStream] at h
          split at h
          · cases h
          · rename_i hall
            obtain rfl := Except.ok.inj h
            exact hpre.resolve_left fun hafter => hall ⟨f, hf, hafter⟩
      | cons b bytes =>
          obtain ⟨type, s1, len, s2, st', s3, horder, h1, h2, h3, hrest⟩ :=
            decodeTlvStream_cons h
          have hlt1 := readBigSize_length h1
          have hlt2 := readBigSize_length h2
          have hlt3 := readTlvValue_length h3
          refine ih s3.length (by omega) hrest ?_ rfl
          have hval := readTlvValue_cases h3
          -- the field itself is of an earlier type, of this type or of a later one
          rcases hpre with hafter | hstored
          · rcases Nat.lt_trichotomy f.type type with hlt | heq | hgt
            · exact absurd (Or.inr ⟨f, hf, hafter, hlt⟩) horder
            · subst heq
              rw [find_rising hrise hf] at hval
              rcases hval with ⟨g, hg, hfind, _, _, hrun⟩ | ⟨hnone, -⟩
              · obtain rfl := Option.some.inj hfind
                exact Or.inr (hstore f hf _ _ _ _ hrun).1
              · cases hnone
            · refine Or.inl fun t ht => ?_
              obtain rfl := Option.some.inj ht
              exact hgt
          · rcases hval with ⟨g, hg, -, _, _, hrun⟩ | ⟨-, rfl⟩
            · exact Or.inr ((hstore g hg _ _ _ _ hrun).2 f hf hstored)
            · exact Or.inr hstored

/-- No stream makes the decoder panic. -/
theorem decodeTlvStream_noPanic (hsound : ∀ f ∈ fields, ∀ st, Sound (f.read st))
    (last : Option Nat) (st : σ) (s : List UInt8) :
    decodeTlvStream fields last st s ≠ .error .panicked := by
  induction hn : s.length using Nat.strongRecOn generalizing s last st with
  | _ n ih =>
      cases s with
      | nil =>
          rw [decodeTlvStream]
          split <;> rintro ⟨⟩
      | cons b bytes =>
          rw [decodeTlvStream]
          split
          · rename_i e he
            intro h
            obtain rfl := Except.error.inj h
            exact readBigSize_sound.noPanic _ he
          · rename_i type s1 h1
            split
            · rintro ⟨⟩
            · split
              · rename_i e he
                intro h
                obtain rfl := Except.error.inj h
                exact readBigSize_sound.noPanic _ he
              · rename_i len s2 h2
                split
                · rename_i e he
                  intro h
                  obtain rfl := Except.error.inj h
                  exact (readTlvValue_sound hsound _ _ _).noPanic _ he
                · rename_i st' s3 h3
                  -- a field takes bytes, so what is left is shorter
                  have hlt1 := readBigSize_length h1
                  have hlt2 := readBigSize_length h2
                  have hlt3 := readTlvValue_length h3
                  exact ih s3.length (by omega) _ _ _ rfl

/-- What the fields of a record store one after the other, each from its own bytes. -/
def Stores : List (TlvField σ × List UInt8) → σ → σ → Prop
  | [], st, out => st = out
  | (f, w) :: rest, st, out =>
      f.type < 2 ^ 64 ∧ w.length < 2 ^ 64 ∧
        ∃ mid, Reads (f.read st) w mid ∧ Stores rest mid out

/-- A known field is read by its own reader. -/
theorem readTlvValue_reads {f : TlvField σ} {st st' : σ} {w : List UInt8}
    (hrise : Rising fields) (hf : f ∈ fields) (hread : Reads (f.read st) w st') :
    Reads (readTlvValue fields f.type w.length st) w st' := by
  rw [readTlvValue]
  rw [find_rising hrise hf]
  refine reads_bind_last (withFixedLength_reads hread (Nat.le_refl w.length)) ?_
  rw [if_pos (Nat.sub_self w.length)]
  exact reads_pure st'

/-- The last type of `seen`. -/
def lastType (seen : List (TlvField σ)) : Option Nat := seen.getLast?.map TlvField.type

/-- A later field comes after those seen. -/
theorem after_lastType {seen later : List (TlvField σ)} (hrise : Rising (seen ++ later))
    {f : TlvField σ} (hf : f ∈ later) : After (lastType seen) f.type := by
  intro t ht
  obtain ⟨g, hg, rfl⟩ := Option.map_eq_some_iff.mp ht
  exact (List.pairwise_append.mp hrise).2.2 g (List.mem_of_getLast? hg) f hf

theorem not_after_lastType {seen : List (TlvField σ)} (hrise : Rising seen)
    {f : TlvField σ} (hf : f ∈ seen) : ¬ After (lastType seen) f.type := by
  intro hafter
  obtain ⟨init, g, rfl⟩ := List.eq_nil_or_concat seen |>.resolve_left (by rintro rfl; cases hf)
  rw [List.concat_eq_append] at hf hrise hafter
  have hlt := hafter g.type (by simp [lastType])
  rcases List.mem_append.mp hf with hinit | hg
  · have hpair := (List.pairwise_append.mp hrise).2.2 f hinit g (by simp)
    omega
  · rw [List.mem_singleton.mp hg] at hlt
    omega

/-- **A STREAM READ BACK**: the fields of a record, in order, are stored one after the
    other. -/
theorem decodeTlvStream_stores {seen : List (TlvField σ)}
    {todo : List (TlvField σ × List UInt8)} {st out : σ}
    (hfields : fields = seen ++ todo.map Prod.fst) (hrise : Rising fields)
    (h : Stores todo st out) :
    decodeTlvStream fields (lastType seen) st
      (todo.flatMap fun f => writeTlv f.1.type f.2) = .ok out := by
  induction todo generalizing seen st with
  | nil =>
      obtain rfl : st = out := h
      rw [List.map_nil, List.append_nil] at hfields
      rw [List.flatMap_nil, decodeTlvStream, if_neg]
      rintro ⟨f, hf, hafter⟩
      rw [hfields] at hf hrise
      exact not_after_lastType hrise hf hafter
  | cons head rest ih =>
      obtain ⟨f, w⟩ := head
      obtain ⟨htype, hlen, mid, hread, hrest⟩ := h
      have hf : f ∈ fields := by
        rw [hfields]
        simp
      have horder : ¬ OutOfOrder fields (lastType seen) f.type := by
        rw [hfields, List.map_cons] at hrise
        rintro (hnot | ⟨g, hg, hafter, hlt⟩)
        · exact hnot (after_lastType hrise (by simp))
        · -- a field before `f` has been seen, one after it has a higher type
          rw [hfields] at hg
          rcases List.mem_append.mp hg with hseen | hlater
          · exact not_after_lastType (List.pairwise_append.mp hrise).1 hseen hafter
          · rcases List.mem_cons.mp hlater with rfl | hmem
            · exact Nat.lt_irrefl _ hlt
            · have hlater := (List.pairwise_append.mp hrise).2.1
              have hgt : f.type < g.type := (List.pairwise_cons.mp hlater).1 g hmem
              omega
      rw [List.flatMap_cons, writeTlv, List.append_assoc, List.append_assoc,
        decodeTlvStream_step (readBigSize_reads htype _) horder (readBigSize_reads hlen _)
          (readTlvValue_reads hrise hf hread _)]
      have hlast : lastType (seen ++ [f]) = some f.type := by simp [lastType]
      rw [← hlast]
      exact ih (by rw [hfields]; simp) hrest

/-! ## Records behind their length -/

theorem readTlvFields_sound (hsound : ∀ f ∈ fields, ∀ st, Sound (f.read st)) (st : σ) :
    Sound (readTlvFields fields st) := by
  refine sound_bind readBigSize_sound fun len => ⟨?_, ?_⟩
  · intro s out rest more h
    simp only [StateT.run] at h ⊢
    split at h
    · cases h
    · rename_i st' hst
      split at h
      · cases h
      · rename_i hlong
        obtain ⟨rfl, rfl⟩ := Prod.mk.inj (Except.ok.inj h)
        -- all of the record is there, so what follows it is not looked at
        rw [List.take_append_of_le_length (by omega), hst]
        simp only
        rw [if_neg (by rw [List.length_append]; omega),
          List.drop_append_of_le_length (by omega)]
  · intro s h
    simp only [StateT.run] at h
    split at h
    · rename_i e he
      obtain rfl := Except.error.inj h
      exact decodeTlvStream_noPanic hsound none st _ he
    · split at h <;> cases h

/-- The stream of a record is whole when the record has been read. -/
theorem readTlvFields_stream {st out : σ} {s rest : List UInt8}
    (h : (readTlvFields fields st).run s = .ok (out, rest)) :
    ∃ stream, decodeTlvStream fields none st stream = .ok out := by
  obtain ⟨len, s', -, h⟩ := bind_run_eq_ok h
  simp only [StateT.run] at h
  split at h
  · cases h
  · rename_i st' hst
    split at h
    · cases h
    · obtain ⟨rfl, -⟩ := Prod.mk.inj (Except.ok.inj h)
      exact ⟨_, hst⟩

/-- **A RECORD READ BACK**: the fields in order, each with its bytes. -/
theorem readTlvFields_reads (tlvs : List (TlvField σ × List UInt8)) {st out : σ}
    (hfields : fields = tlvs.map Prod.fst) (hrise : Rising fields) (h : Stores tlvs st out)
    (hlen : (tlvs.flatMap fun f => writeTlv f.1.type f.2).length < 2 ^ 64) :
    Reads (readTlvFields fields st)
      (writeTlvFields (tlvs.map fun f => (f.1.type, f.2))) out := by
  have hstream : (tlvs.map fun f => (f.1.type, f.2)).flatMap (fun f => writeTlv f.1 f.2)
      = tlvs.flatMap fun f => writeTlv f.1.type f.2 := List.flatMap_map ..
  rw [writeTlvFields]
  simp only [hstream]
  refine reads_bind (readBigSize_reads hlen) fun more => ?_
  have hdec : decodeTlvStream fields (lastType []) st _ = .ok out :=
    decodeTlvStream_stores hfields hrise h
  simp only [StateT.run, List.take_left, List.drop_left]
  rw [show (none : Option Nat) = lastType ([] : List (TlvField σ)) from rfl, hdec]
  simp only
  rw [if_neg (by rw [List.length_append]; omega)]

end TlvStream
