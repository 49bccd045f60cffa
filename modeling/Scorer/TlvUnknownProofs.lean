import Scorer.TlvStreamProofs

/-! # TLV streams with unknown fields

    A later version of a program may write fields that an earlier one does not
    know, anywhere between the known ones.  The reader skips an unknown field of an
    odd type and refuses one of an even type ("it is OK to be odd").

    * `Extends known tlvs`: the stream has the known fields in their order, and any
      others between them;
    * `decodeTlvStream_extended`: it is read as if the others were not there when
      they are odd, and refused as soon as one of them is even;
    * `readTlvFields_extended`, `readEntries_extended`: the same for a record behind
      its length, and for the entries of a map. -/

namespace TlvUnknown

open ByteReader LengthPrefix TlvStream

variable {σ α β : Type}

/-! ## Readers that refuse -/

/-- `r` fails with `e` whatever follows `w`. -/
def Refuses (r : Reader α) (w : List UInt8) (e : Failure) : Prop :=
  ∀ more, r.run (w ++ more) = .error e

/-- A failure refuses everything. -/
theorem refuses_fail (w : List UInt8) (e : Failure) : Refuses (fail e : Reader α) w e :=
  fun _ => rfl

/-- A refusal in front is one of the whole. -/
theorem refuses_bind_first {x : Reader α} {f : α → Reader β} {w w' : List UInt8}
    {e : Failure} (hx : Refuses x w e) : Refuses (x >>= f) (w ++ w') e := by
  intro more
  rw [List.append_assoc]
  exact bind_run_error (hx (w' ++ more))

theorem refuses_bind_all {x : Reader α} {f : α → Reader β} {w : List UInt8}
    {e : Failure} (hx : Refuses x w e) : Refuses (x >>= f) w e :=
  fun more => bind_run_error (hx more)

/-- A refusal behind what is read is one too. -/
theorem refuses_bind_second {x : Reader α} {f : α → Reader β} {w w' : List UInt8} {a : α}
    {e : Failure} (hx : Reads x w a) (hf : Refuses (f a) w' e) :
    Refuses (x >>= f) (w ++ w') e := by
  intro more
  rw [List.append_assoc, bind_run_ok (hx (w' ++ more))]
  exact hf more

theorem withFixedLength_refuses {r : Reader α} {len : Nat} {w : List UInt8} {e : Failure}
    (hr : Refuses r w e) (hlen : w.length ≤ len) :
    Refuses (withFixedLength len r) w e := by
  intro more
  have htake : (w ++ more).take len = w ++ more.take (len - w.length) := by
    rw [List.take_append, List.take_of_length_le hlen]
  have hrun := hr (more.take (len - w.length))
  rw [← htake] at hrun
  simp only [withFixedLength, StateT.run] at hrun ⊢
  rw [hrun]

/-! ## Streams with other fields -/

/-- The known fields with their bytes, in order, and any others between them. -/
inductive Extends :
    List (TlvField σ × List UInt8) → List (Nat × List UInt8) → Prop where
  | done : Extends [] []
  | known {todo rest} (f : TlvField σ) (w : List UInt8) (h : Extends todo rest) :
      Extends ((f, w) :: todo) ((f.type, w) :: rest)
  | other {todo rest} (type : Nat) (w : List UInt8) (h : Extends todo rest) :
      Extends todo ((type, w) :: rest)

/-- The types rise, and types and lengths are numbers of 64 bits. -/
structure WellOrdered (tlvs : List (Nat × List UInt8)) : Prop where
  rising : tlvs.Pairwise fun e e' => e.1 < e'.1
  fits : ∀ e ∈ tlvs, e.1 < 2 ^ 64 ∧ e.2.length < 2 ^ 64

/-- Every field that is not one of `fields` has an odd type. -/
def OthersOdd (fields : List (TlvField σ)) (tlvs : List (Nat × List UInt8)) : Prop :=
  ∀ e ∈ tlvs, (∀ f ∈ fields, f.type ≠ e.1) → e.1 % 2 = 1

/-- The bytes of a stream. -/
def stream (tlvs : List (Nat × List UInt8)) : List UInt8 :=
  tlvs.flatMap fun e => writeTlv e.1 e.2

/-- The rest of rising fields rises. -/
theorem WellOrdered.tail {e : Nat × List UInt8} {rest : List (Nat × List UInt8)}
    (h : WellOrdered (e :: rest)) : WellOrdered rest :=
  ⟨(List.pairwise_cons.mp h.rising).2, fun e' he' => h.fits e' (List.mem_cons_of_mem _ he')⟩

/-- A known field is in the stream. -/
theorem Extends.mem {todo : List (TlvField σ × List UInt8)}
    {tlvs : List (Nat × List UInt8)} (h : Extends todo tlvs) {f : TlvField σ}
    (hf : f ∈ todo.map Prod.fst) : ∃ w, (f.type, w) ∈ tlvs := by
  induction h with
  | done => cases hf
  | known g w h ih =>
      rw [List.map_cons] at hf
      rcases List.mem_cons.mp hf with rfl | hrest
      · exact ⟨w, List.mem_cons_self⟩
      · obtain ⟨w', hw'⟩ := ih hrest
        exact ⟨w', List.mem_cons_of_mem _ hw'⟩
  | other type w h ih =>
      obtain ⟨w', hw'⟩ := ih hf
      exact ⟨w', List.mem_cons_of_mem _ hw'⟩

variable {fields : List (TlvField σ)}

/-- A round that fails at its value. -/
theorem decodeTlvStream_refused {last : Option Nat} {st : σ} {type len : Nat}
    {s s1 s2 : List UInt8} {e : Failure} (htype : readBigSize.run s = .ok (type, s1))
    (horder : ¬ OutOfOrder fields last type) (hlen : readBigSize.run s1 = .ok (len, s2))
    (hval : (readTlvValue fields type len st).run s2 = .error e) :
    decodeTlvStream fields last st s = .error e := by
  cases s with
  | nil => cases htype
  | cons b bytes =>
      rw [decodeTlvStream]
      split
      · rename_i e' he
        cases he.symm.trans htype
      · rename_i type' s1' h1
        obtain ⟨rfl, rfl⟩ := Prod.mk.inj (Except.ok.inj (h1.symm.trans htype))
        rw [if_neg horder]
        split
        · rename_i e' he
          cases he.symm.trans hlen
        · rename_i len' s2' h2
          obtain ⟨rfl, rfl⟩ := Prod.mk.inj (Except.ok.inj (h2.symm.trans hlen))
          split
          · rename_i e' he
            obtain rfl := Except.error.inj (he.symm.trans hval)
            rfl
          · rename_i st1 s3' h3
            cases h3.symm.trans hval

private theorem find_none {type : Nat} (h : ∀ f ∈ fields, f.type ≠ type) :
    fields.find? (fun f => f.type = type) = none := by
  rw [List.find?_eq_none]
  intro f hf heq
  exact h f hf (of_decide_eq_true heq)

/-- An unknown field of an odd type is skipped. -/
theorem readTlvValue_odd {type : Nat} (hnone : ∀ f ∈ fields, f.type ≠ type)
    (hodd : type % 2 = 1) (w : List UInt8) (st : σ) :
    Reads (readTlvValue fields type w.length st) w st := by
  rw [readTlvValue, find_none hnone]
  simp only
  rw [if_neg (by omega)]
  have heat : Reads (eatRemaining w.length) w () :=
    reads_bind_last (readExact_reads w) (reads_pure ())
  exact reads_bind_last heat (reads_pure st)

/-- One of an even type ends the read. -/
theorem readTlvValue_even {type : Nat} (hnone : ∀ f ∈ fields, f.type ≠ type)
    (heven : type % 2 = 0) (len : Nat) (w : List UInt8) (st : σ) :
    Refuses (readTlvValue fields type len st) w .unknownRequiredFeature := by
  rw [readTlvValue, find_none hnone]
  simp only
  rw [if_pos heven]
  exact refuses_fail w _

private theorem after_some {t type : Nat} : After (some t) type ↔ t < type := by
  simp [After]

/-- After a type that lies after `last`, what was not after `last` is not after it. -/
private theorem not_after_of {last : Option Nat} {t type : Nat} (ht : After last t)
    (h : ¬ After last type) : ¬ After (some t) type := by
  intro hafter
  rw [after_some] at hafter
  refine h fun l hl => ?_
  exact Nat.lt_trans (ht l hl) hafter

/-- **UNKNOWN FIELDS**: a stream with other fields is read like the known ones alone
    when the others are odd, and is refused when one of them is even. -/
theorem decodeTlvStream_extended {seen : List (TlvField σ)}
    {todo : List (TlvField σ × List UInt8)} {tlvs : List (Nat × List UInt8)}
    {last : Option Nat} {st out : σ} (hext : Extends todo tlvs)
    (hfields : fields = seen ++ todo.map Prod.fst) (hrise : Rising fields)
    (hwo : WellOrdered tlvs) (hseen : ∀ f ∈ seen, ¬ After last f.type)
    (hafter : ∀ e ∈ tlvs, After last e.1) (hstores : Stores todo st out) :
    (OthersOdd fields tlvs → decodeTlvStream fields last st (stream tlvs) = .ok out) ∧
      (¬ OthersOdd fields tlvs →
        decodeTlvStream fields last st (stream tlvs) = .error .unknownRequiredFeature) := by
  induction hext generalizing seen last st with
  | done =>
      refine ⟨fun _ => ?_, fun hnot => absurd (fun e he => nomatch he) hnot⟩
      obtain rfl : st = out := hstores
      rw [List.map_nil, List.append_nil] at hfields
      rw [stream, List.flatMap_nil, decodeTlvStream, if_neg]
      rintro ⟨f, hf, hlater⟩
      rw [hfields] at hf
      exact hseen f hf hlater
  | @known todo rest f w h ih =>
      obtain ⟨htype, hlen, mid, hread, hrest⟩ := hstores
      have hf : f ∈ fields := by
        rw [hfields]
        simp
      have hhead : After last f.type := hafter _ List.mem_cons_self
      have hpair := List.pairwise_append.mp (hfields ▸ hrise)
      have hlater : ∀ g ∈ todo.map Prod.fst, f.type < g.type :=
        (List.pairwise_cons.mp hpair.2.1).1
      have horder : ¬ OutOfOrder fields last f.type := by
        rintro (hnot | ⟨g, hg, hgafter, hlt⟩)
        · exact hnot hhead
        · rw [hfields] at hg
          rcases List.mem_append.mp hg with hold | hnew
          · exact hseen g hold hgafter
          · rcases List.mem_cons.mp hnew with rfl | hmem
            · exact Nat.lt_irrefl _ hlt
            · exact Nat.lt_asymm (hlater g hmem) hlt
      have hstep : decodeTlvStream fields last st (stream ((f.type, w) :: rest))
          = decodeTlvStream fields (some f.type) mid (stream rest) := by
        rw [stream, List.flatMap_cons, writeTlv, List.append_assoc, List.append_assoc]
        exact decodeTlvStream_step (readBigSize_reads htype _) horder
          (readBigSize_reads hlen _) (readTlvValue_reads hrise hf hread _)
      have hodd : OthersOdd fields ((f.type, w) :: rest) ↔ OthersOdd fields rest := by
        simp only [OthersOdd, List.forall_mem_cons]
        exact ⟨fun hall => hall.2, fun hall => ⟨fun hno => absurd rfl (hno f hf), hall⟩⟩
      rw [hstep, hodd]
      have hseen' : fields = (seen ++ [f]) ++ todo.map Prod.fst := by
        rw [hfields]
        simp
      refine ih hseen' hwo.tail ?_ ?_ hrest
      · intro g hg
        rcases List.mem_append.mp hg with hold | hnew
        · exact not_after_of hhead (hseen g hold)
        · rw [List.mem_singleton.mp hnew, after_some]
          exact Nat.lt_irrefl _
      · exact fun e he => after_some.mpr ((List.pairwise_cons.mp hwo.rising).1 e he)
  | @other todo rest type w h ih =>
      have hhead : After last type := hafter _ List.mem_cons_self
      -- a field that has been read lies before `type`, one to come lies after it
      have hnew : ∀ g ∈ todo.map Prod.fst, type < g.type := by
        intro g hg
        obtain ⟨w', hw'⟩ := h.mem hg
        exact (List.pairwise_cons.mp hwo.rising).1 _ hw'
      have hnone : ∀ g ∈ fields, g.type ≠ type := by
        intro g hg heq
        rw [hfields] at hg
        rcases List.mem_append.mp hg with hold | hmem
        · exact hseen g hold (heq ▸ hhead)
        · exact absurd heq (Nat.ne_of_gt (hnew g hmem))
      have horder : ¬ OutOfOrder fields last type := by
        rintro (hnot | ⟨g, hg, hgafter, hlt⟩)
        · exact hnot hhead
        · rw [hfields] at hg
          rcases List.mem_append.mp hg with hold | hmem
          · exact hseen g hold hgafter
          · exact Nat.lt_asymm (hnew g hmem) hlt
      obtain ⟨htype, hlen⟩ := hwo.fits _ List.mem_cons_self
      have hbytes : stream ((type, w) :: rest)
          = writeBigSize type ++ (writeBigSize w.length ++ (w ++ stream rest)) := by
        rw [stream, List.flatMap_cons, writeTlv, List.append_assoc, List.append_assoc]
        rfl
      rw [hbytes]
      rcases Nat.mod_two_eq_zero_or_one type with heven | hodd
      · refine ⟨fun hall => ?_, fun _ => ?_⟩
        · have hone := hall _ List.mem_cons_self hnone
          simp only at hone
          omega
        · exact decodeTlvStream_refused (readBigSize_reads htype _) horder
            (readBigSize_reads hlen _) (readTlvValue_even hnone heven _ w st _)
      · rw [decodeTlvStream_step (readBigSize_reads htype _) horder
          (readBigSize_reads hlen _) (readTlvValue_odd hnone hodd w st _)]
        have hrest : OthersOdd fields ((type, w) :: rest) ↔ OthersOdd fields rest := by
          simp only [OthersOdd, List.forall_mem_cons]
          exact ⟨fun hall => hall.2, fun hall => ⟨fun _ => hodd, hall⟩⟩
        rw [hrest]
        refine ih hfields hwo.tail ?_ ?_ hstores
        · exact fun g hg => not_after_of hhead (hseen g hg)
        · exact fun e he => after_some.mpr ((List.pairwise_cons.mp hwo.rising).1 e he)

/-- A record behind its length. -/
theorem readTlvFields_extended {todo : List (TlvField σ × List UInt8)}
    {tlvs : List (Nat × List UInt8)} {st out : σ} (hext : Extends todo tlvs)
    (hfields : fields = todo.map Prod.fst) (hrise : Rising fields)
    (hwo : WellOrdered tlvs) (hlen : (stream tlvs).length < 2 ^ 64)
    (hstores : Stores todo st out) :
    (OthersOdd fields tlvs → Reads (readTlvFields fields st) (writeTlvFields tlvs) out) ∧
      (¬ OthersOdd fields tlvs →
        Refuses (readTlvFields fields st) (writeTlvFields tlvs) .unknownRequiredFeature) := by
  have hdec := @decodeTlvStream_extended σ fields [] todo tlvs none st out hext hfields hrise
    hwo (fun f hf => by cases hf) (fun e _ t ht => by cases ht) hstores
  have hbytes : writeTlvFields tlvs
      = writeBigSize (stream tlvs).length ++ stream tlvs := rfl
  rw [hbytes]
  constructor
  · intro hodd
    refine reads_bind (readBigSize_reads hlen) fun more => ?_
    simp only [StateT.run, List.take_left, List.drop_left]
    rw [hdec.1 hodd]
    simp only
    rw [if_neg (by rw [List.length_append]; omega)]
  · intro hnot
    refine refuses_bind_second (readBigSize_reads hlen) fun more => ?_
    simp only [StateT.run, List.take_left]
    rw [hdec.2 hnot]

/-- A known field of type 0 is the first of the stream. -/
theorem Extends.zero {f : TlvField σ} {w : List UInt8}
    {todo : List (TlvField σ × List UInt8)} {tlvs : List (Nat × List UInt8)}
    (h : Extends ((f, w) :: todo) tlvs) (hf : f.type = 0) (hwo : WellOrdered tlvs) :
    ∃ rest, tlvs = (f.type, w) :: rest := by
  cases h with
  | known _ _ h => exact ⟨_, rfl⟩
  | @other _ rest type w' h =>
      obtain ⟨v, hv⟩ := h.mem (f := f) (by simp)
      have hlt : type < f.type := (List.pairwise_cons.mp hwo.rising).1 _ hv
      omega

/-- A record whose first field is refused is refused. -/
theorem readTlvFields_refused {f : TlvField σ} {w : List UInt8}
    {rest : List (Nat × List UInt8)} {st : σ} {e : Failure} (hrise : Rising fields)
    (hf : f ∈ fields) (hfirst : ∀ g ∈ fields, ¬ g.type < f.type)
    (hwo : WellOrdered ((f.type, w) :: rest))
    (hlen : (stream ((f.type, w) :: rest)).length < 2 ^ 64)
    (hread : Refuses (f.read st) w e) :
    Refuses (readTlvFields fields st) (writeTlvFields ((f.type, w) :: rest)) e := by
  obtain ⟨htype, hw⟩ := hwo.fits _ List.mem_cons_self
  have horder : ¬ OutOfOrder fields none f.type := by
    rintro (hnot | ⟨g, hg, -, hlt⟩)
    · exact hnot fun t ht => absurd ht (Option.some_ne_none t).symm
    · exact hfirst g hg hlt
  have hval : Refuses (readTlvValue fields f.type w.length st) w e := by
    rw [readTlvValue, find_rising hrise hf]
    exact refuses_bind_all (withFixedLength_refuses hread (Nat.le_refl _))
  have hdec : decodeTlvStream fields none st (stream ((f.type, w) :: rest)) = .error e := by
    rw [stream, List.flatMap_cons, writeTlv, List.append_assoc, List.append_assoc]
    exact decodeTlvStream_refused (readBigSize_reads htype _) horder
      (readBigSize_reads hw _) (hval _)
  have hbytes : writeTlvFields ((f.type, w) :: rest)
      = writeBigSize (stream ((f.type, w) :: rest)).length
        ++ stream ((f.type, w) :: rest) := rfl
  rw [hbytes]
  refine refuses_bind_second (readBigSize_reads hlen) fun more => ?_
  simp only [StateT.run, List.take_left]
  rw [hdec]

/-! ## Maps of such records -/

section Maps

variable {K V R : Type} [Ord K] [Std.TransOrd K] [Std.LawfulEqOrd K]
  {readKey : Reader K} {readValue : Reader V} {writeKey : K → List UInt8} {e : Failure}

/-- The entries of a map, their values written as `R`s: the map is read when each
    value is, and refused when one of them is. -/
theorem readEntries_extended (value : R → V) (text : R → List UInt8) (good : R → Prop)
    {entries : List (K × R)} {ret : Std.ExtTreeMap K V}
    (hk : ∀ k, Reads readKey (writeKey k) k)
    (hok : ∀ r, good r → Reads readValue (text r) (value r))
    (herr : ∀ r, ¬ good r → Refuses readValue (text r) e)
    (hnew : ∀ x ∈ entries, x.1 ∉ ret) (hkeys : entries.Pairwise fun x y => x.1 ≠ y.1) :
    ((∀ x ∈ entries, good x.2) →
      Reads (readEntries readKey readValue entries.length ret)
        (entries.flatMap fun x => writeKey x.1 ++ text x.2)
        (ret.insertMany (entries.map fun x => (x.1, value x.2)))) ∧
      ((∃ x ∈ entries, ¬ good x.2) →
        Refuses (readEntries readKey readValue entries.length ret)
          (entries.flatMap fun x => writeKey x.1 ++ text x.2) e) := by
  induction entries generalizing ret with
  | nil => exact ⟨fun _ => reads_pure ret, fun ⟨_, hx, _⟩ => nomatch hx⟩
  | cons x rest ih =>
      obtain ⟨hhead, hrest⟩ := List.pairwise_cons.mp hkeys
      have hnew' : ∀ y ∈ rest, y.1 ∉ ret.insert x.1 (value x.2) := by
        intro y hy
        rw [Std.ExtTreeMap.mem_insert, not_or]
        exact ⟨fun heq => hhead y hy (Std.LawfulEqOrd.eq_of_compare heq),
          hnew y (List.mem_cons_of_mem x hy)⟩
      have htail := ih hnew' hrest
      have hfresh := hnew x List.mem_cons_self
      rw [List.flatMap_cons, List.append_assoc]
      constructor
      · intro hall
        refine reads_bind (hk x.1)
          (reads_bind (hok x.2 (hall x List.mem_cons_self)) ?_)
        rw [if_neg hfresh, List.map_cons, Std.ExtTreeMap.insertMany_cons]
        exact htail.1 fun y hy => hall y (List.mem_cons_of_mem x hy)
      · rintro ⟨y, hy, hbad⟩
        by_cases hgood : good x.2
        · -- the first value is read, so the bad one is in the rest
          refine refuses_bind_second (hk x.1)
            (refuses_bind_second (hok x.2 hgood) ?_)
          rw [if_neg hfresh]
          rcases List.mem_cons.mp hy with rfl | hmem
          · exact absurd hgood hbad
          · exact htail.2 ⟨y, hmem, hbad⟩
        · exact refuses_bind_second (hk x.1) (refuses_bind_first (herr x.2 hgood))

end Maps

end TlvUnknown
