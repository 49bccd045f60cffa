import Mathlib

/-! # Reservoir sampling

    `reservoir_sample` of `runner.rs` picks the recipients of the random probes: the
    first `sample_size` candidates fill the reservoir, and each later one replaces
    the item in a slot that the generator draws, or no item when the draw falls
    outside the reservoir.

    * `reservoirSample` follows the source, for any generator and any allocator;
    * `reservoir_spec`: the reservoir holds `min k n` of the `n` candidates seen, and
      distinct ones when they are distinct;
    * `sample_uniform`: over all answers of the generator, each `k`-element subset of
      the candidates is returned equally often.

    The count goes by the last candidate.  A subset without it comes from the same
    subset and a draw that misses the reservoir; a subset with it comes from any of
    the subsets that have one other item in its place, and the one draw that hits
    that item. -/

namespace ReservoirSample

variable {T R : Type}

/-- `Rng::gen_range`: the bounds, and the state of the generator. -/
abbrev GenRange (R : Type) := Nat → Nat → R → Nat × R

/-- The variables of the loop. -/
structure Sampling (T R : Type) where
  reservoir : List T
  seen      : Nat
  rng       : R

/-- One turn of the loop. -/
def offer (genRange : GenRange R) (sampleSize : Nat) (s : Sampling T R) (candidate : T) :
    Sampling T R :=
  let seen := s.seen + 1
  if s.reservoir.length < sampleSize then
    ⟨s.reservoir ++ [candidate], seen, s.rng⟩
  else
    let (replaceIdx, rng) := genRange 0 seen s.rng
    if replaceIdx < sampleSize then ⟨s.reservoir.set replaceIdx candidate, seen, rng⟩
    else ⟨s.reservoir, seen, rng⟩

/-- `reservoir_sample`, with the generator it leaves.  `Vec::with_capacity` is the
    allocator's: `none` is an abort. -/
def reservoirSample (withCapacity : Nat → Option (List T)) (genRange : GenRange R)
    (candidates : List T) (sampleSize : Nat) (rng : R) : Option (List T × R) :=
  if sampleSize = 0 then some ([], rng)
  else
    (withCapacity sampleSize).map fun reservoir =>
      let s := candidates.foldl (offer genRange sampleSize) ⟨reservoir, 0, rng⟩
      (s.reservoir, s.rng)

/-! ## The loop -/

section Loop

variable (genRange : GenRange R) (k : Nat) (rng : R)

/-- The loop after the candidates `xs`. -/
def sampling (xs : List T) : Sampling T R := xs.foldl (offer genRange k) ⟨[], 0, rng⟩

@[simp] theorem sampling_nil : sampling genRange k rng ([] : List T) = ⟨[], 0, rng⟩ := rfl

theorem sampling_concat (xs : List T) (x : T) :
    sampling genRange k rng (xs ++ [x]) = offer genRange k (sampling genRange k rng xs) x :=
  List.foldl_concat _ _ _ _

variable {genRange k rng} {s : Sampling T R} {x : T} {xs : List T}

/-- The reservoir is filled first. -/
theorem offer_push {reservoir : List T} {seen : Nat} (h : reservoir.length < k) :
    offer genRange k ⟨reservoir, seen, rng⟩ x = ⟨reservoir ++ [x], seen + 1, rng⟩ := if_pos h

/-- Draw a slot and put the candidate there, if there is such a slot. -/
def place (k : Nat) (reservoir : List T) (x : T) (replaceIdx : Nat) : List T :=
  if replaceIdx < k then reservoir.set replaceIdx x else reservoir

/-- Once the reservoir is full a candidate takes the place that is drawn in it, if any. -/
theorem offer_place {reservoir : List T} {seen : Nat} (h : ¬ reservoir.length < k) :
    offer genRange k ⟨reservoir, seen, rng⟩ x =
      ⟨place k reservoir x (genRange 0 (seen + 1) rng).1, seen + 1,
        (genRange 0 (seen + 1) rng).2⟩ := by
  rw [offer, if_neg h, place]
  by_cases hidx : (genRange 0 (seen + 1) rng).1 < k
  · rw [if_pos hidx]
    exact if_pos hidx
  · rw [if_neg hidx]
    exact if_neg hidx

theorem length_place (reservoir : List T) (i : Nat) :
    (place k reservoir x i).length = reservoir.length := by
  rw [place]
  split
  · exact List.length_set
  · rfl

theorem mem_of_mem_place {reservoir : List T} {i : Nat} {y : T}
    (h : y ∈ place k reservoir x i) : y ∈ reservoir ∨ y = x := by
  rw [place] at h
  split at h
  · exact List.mem_or_eq_of_mem_set h
  · exact Or.inl h

theorem nodup_place {reservoir : List T} {i : Nat} (hd : reservoir.Nodup)
    (hx : x ∉ reservoir) : (place k reservoir x i).Nodup := by
  rw [place]
  split
  · exact hd.set hx
  · exact hd

/-- What the loop keeps: its counter, the size of the reservoir, where the items come
    from, and that distinct candidates stay distinct. -/
structure Sampled (k : Nat) (xs : List T) (s : Sampling T R) : Prop where
  seen : s.seen = xs.length
  length : s.reservoir.length = min k xs.length
  subset : ∀ y ∈ s.reservoir, y ∈ xs
  nodup : xs.Nodup → s.reservoir.Nodup

/-- One candidate more keeps the sample one of those seen. -/
theorem Sampled.offer (h : Sampled k xs s) (genRange : GenRange R) (x : T) :
    Sampled k (xs ++ [x]) (offer genRange k s x) := by
  have hnew : (xs ++ [x]).Nodup → x ∉ s.reservoir := by
    intro hd hx
    exact (List.nodup_append.mp hd).2.2 x (h.subset x hx) x (by simp) rfl
  have hlen := h.length
  by_cases hfull : s.reservoir.length < k
  · rw [offer_push hfull]
    constructor
    · simp [h.seen]
    · simp only [List.length_append, List.length_singleton]
      omega
    · intro y hy
      rcases List.mem_append.mp hy with hy | hy
      · exact List.mem_append_left _ (h.subset y hy)
      · exact List.mem_append_right _ hy
    · intro hd
      have hold := h.nodup (List.nodup_append.mp hd).1
      exact List.nodup_append.mpr ⟨hold, List.nodup_singleton x, fun a ha b hb heq =>
        hnew hd (List.mem_singleton.mp hb ▸ heq ▸ ha)⟩
  · rw [offer_place hfull]
    constructor
    · simp [h.seen]
    · simp only [length_place, List.length_append, List.length_singleton]
      omega
    · intro y hy
      rcases mem_of_mem_place hy with hy | rfl
      · exact List.mem_append_left _ (h.subset y hy)
      · exact List.mem_append_right _ List.mem_cons_self
    · intro hd
      exact nodup_place (h.nodup (List.nodup_append.mp hd).1) (hnew hd)

/-- **THE RESERVOIR**: what the loop keeps, for any generator. -/
theorem reservoir_spec (genRange : GenRange R) (k : Nat) (rng : R) (xs : List T) :
    Sampled k xs (sampling genRange k rng xs) := by
  induction xs using List.reverseRecOn with
  | nil => exact ⟨rfl, by simp, by simp, fun _ => List.nodup_nil⟩
  | append_singleton xs x ih =>
      rw [sampling_concat]
      exact ih.offer genRange x

end Loop

/-- Sampling commutes with a map of the candidates: it looks at none of them. -/
theorem sampling_map {U : Type} (f : U → T) (genRange : GenRange R) (k : Nat) (rng : R)
    (xs : List U) :
    (sampling genRange k rng (xs.map f)).reservoir =
        (sampling genRange k rng xs).reservoir.map f ∧
      (sampling genRange k rng (xs.map f)).rng = (sampling genRange k rng xs).rng := by
  induction xs using List.reverseRecOn with
  | nil => exact ⟨rfl, rfl⟩
  | append_singleton xs x ih =>
      have hseen : (sampling genRange k rng (xs.map f)).seen =
          (sampling genRange k rng xs).seen := by
        rw [(reservoir_spec genRange k rng _).seen, (reservoir_spec genRange k rng xs).seen,
          List.length_map]
      rw [List.map_append, List.map_singleton, sampling_concat, sampling_concat]
      by_cases hfull : (sampling genRange k rng xs).reservoir.length < k
      · rw [offer_push hfull, offer_push (by rw [ih.1, List.length_map]; exact hfull), ih.1]
        exact ⟨by simp, ih.2⟩
      · rw [offer_place hfull, offer_place (by rw [ih.1, List.length_map]; exact hfull),
          ih.1, ih.2, hseen]
        refine ⟨?_, rfl⟩
        unfold place
        split
        · exact List.map_set.symm
        · rfl

/-- The reservoir holds the items at distinct positions of the candidates. -/
theorem sampling_positions (genRange : GenRange R) (k : Nat) (rng : R) (xs : List T) :
    ∃ positions : List (Fin xs.length), positions.Nodup ∧
      positions.length = min k xs.length ∧
      (sampling genRange k rng xs).reservoir = positions.map xs.get := by
  have hspec := reservoir_spec genRange k rng (List.finRange xs.length)
  refine ⟨_, hspec.nodup (List.nodup_finRange _), ?_, ?_⟩
  · rw [hspec.length, List.length_finRange]
  · rw [← (sampling_map xs.get genRange k rng (List.finRange xs.length)).1,
      List.map_get_finRange]

/-- With the reservoir allocated the function is the loop. -/
theorem reservoirSample_of_alloc {withCapacity : Nat → Option (List T)}
    {genRange : GenRange R} {candidates : List T} {k : Nat} {rng : R} (hk : 1 ≤ k)
    (halloc : withCapacity k = some []) :
    reservoirSample withCapacity genRange candidates k rng =
      some ((sampling genRange k rng candidates).reservoir,
        (sampling genRange k rng candidates).rng) := by
  rw [reservoirSample, if_neg (by omega), halloc]
  rfl

/-! ## Answers of the generator -/

section Answers

/-- The answers a generator is going to give, and the bounds it has been asked for. -/
structure Script where
  answers  : List Nat
  requests : List (Nat × Nat)
  deriving DecidableEq

/-- A generator that gives the listed answers, one for each call, and notes the bounds. -/
def nextAnswer : GenRange Script := fun low high script =>
  (script.answers.headD 0, ⟨script.answers.tail, script.requests ++ [(low, high)]⟩)

/-- For each candidate `i` from `k + 1` to `n`, a request for a number below `i`. -/
def requestsFor (k n : Nat) : List (Nat × Nat) :=
  (List.range' (k + 1) (n - k)).map fun i => (0, i)

theorem requestsFor_fill {n : Nat} (h : n ≤ k) : requestsFor k n = [] := by
  rw [requestsFor, Nat.sub_eq_zero_of_le h]
  rfl

/-- Each further candidate draws once, from those seen and itself. -/
theorem requestsFor_succ {n : Nat} (h : k ≤ n) :
    requestsFor k (n + 1) = requestsFor k n ++ [(0, n + 1)] := by
  have hlast : k + 1 + (n - k) = n + 1 := by omega
  rw [requestsFor, Nat.succ_sub h, List.range'_1_concat, List.map_append, hlast]
  rfl

/-- The answers for the candidates from `k + 1` to `n`: the answer for the candidate `i`
    is below `i`. -/
structure Answers (k n : Nat) (answers : List Nat) : Prop where
  length : answers.length = n - k
  below : ∀ j r, answers[j]? = some r → r < k + 1 + j

/-- The reservoir after the candidates `xs`, for these answers. -/
def drawn (k : Nat) (xs : List T) (answers : List Nat) : List T :=
  (sampling nextAnswer k ⟨answers, []⟩ xs).reservoir

variable {k : Nat} {xs : List T} {x : T} {answers : List Nat}

theorem length_drawn (answers : List Nat) (hk : k ≤ xs.length) :
    (drawn k xs answers).length = k :=
  (reservoir_spec nextAnswer k ⟨answers, []⟩ xs).length.trans (Nat.min_eq_left hk)

theorem drawn_subset {y : T} (h : y ∈ drawn k xs answers) : y ∈ xs :=
  (reservoir_spec nextAnswer k ⟨answers, []⟩ xs).subset y h

theorem nodup_drawn (answers : List Nat) (hd : xs.Nodup) : (drawn k xs answers).Nodup :=
  (reservoir_spec nextAnswer k ⟨answers, []⟩ xs).nodup hd

/-- The loop reads one answer for each candidate after the first `k`, and asks for it
    with the number of that candidate as the bound. -/
theorem sampling_append (xs : List T) (answers tail : List Nat)
    (h : answers.length = xs.length - k) :
    sampling nextAnswer k ⟨answers ++ tail, []⟩ xs =
      ⟨drawn k xs answers, xs.length, ⟨tail, requestsFor k xs.length⟩⟩ := by
  induction xs using List.reverseRecOn generalizing answers tail with
  | nil =>
      obtain rfl := List.length_eq_zero_iff.mp (h.trans (Nat.zero_sub k))
      rw [List.length_nil, requestsFor_fill (Nat.zero_le k)]
      rfl
  | append_singleton xs x ih =>
      rw [List.length_append, List.length_singleton] at h
      rw [drawn]
      rw [sampling_concat, sampling_concat]
      by_cases hfull : xs.length < k
      · -- the reservoir is still filling: no answer is read
        obtain rfl : answers = [] := List.length_eq_zero_iff.mp (by omega)
        have hnil := ih [] [] (by simp; omega)
        rw [List.append_nil] at hnil
        have hlen : (drawn k xs []).length < k := by
          have hlength := (reservoir_spec nextAnswer k ⟨[], []⟩ xs).length
          simp only [drawn]
          omega
        rw [ih [] tail (by simp; omega), hnil, offer_push hlen, offer_push hlen,
          List.length_append, List.length_singleton, requestsFor_fill (Nat.le_of_lt hfull),
          requestsFor_fill hfull]
      · obtain ⟨init, r, rfl⟩ : ∃ init r, answers = init ++ [r] :=
          ⟨_, _, (List.dropLast_concat_getLast (l := answers) (by
            rintro rfl
            simp only [List.length_nil] at h
            omega)).symm⟩
        rw [List.length_append, List.length_singleton] at h
        have hinit : init.length = xs.length - k := by omega
        have hlen : ¬ (drawn k xs init).length < k := by
          rw [length_drawn init (by omega)]
          exact Nat.lt_irrefl k
        rw [List.append_assoc, ih init _ hinit, ih init _ hinit, offer_place hlen,
          offer_place hlen, List.length_append, List.length_singleton,
          requestsFor_succ (Nat.le_of_not_lt hfull)]
        simp [nextAnswer]

theorem drawn_concat (x : T) (r : Nat) (hk : k ≤ xs.length)
    (h : answers.length = xs.length - k) :
    drawn k (xs ++ [x]) (answers ++ [r]) = place k (drawn k xs answers) x r := by
  have hlen : ¬ (drawn k xs answers).length < k := by
    rw [length_drawn answers hk]
    exact Nat.lt_irrefl k
  conv_lhs => rw [drawn]
  rw [sampling_concat, sampling_append xs answers [r] h, offer_place hlen]
  rfl

/-- The first `k` candidates fill the reservoir. -/
theorem drawn_fill (answers : List Nat) (xs : List T) (h : xs.length ≤ k) :
    drawn k xs answers = xs := by
  induction xs using List.reverseRecOn with
  | nil => rfl
  | append_singleton xs x ih =>
      rw [List.length_append, List.length_singleton] at h
      have hold : drawn k xs answers = xs := ih (by omega)
      have hlen : (sampling nextAnswer k ⟨answers, []⟩ xs).reservoir.length < k := by
        have hlength := congrArg List.length hold
        rw [drawn] at hlength
        omega
      rw [drawn, sampling_concat, offer_push hlen]
      exact congrArg (· ++ [x]) hold

end Answers

/-! ## Draws that lead to a given set -/

section Draws

variable [DecidableEq T] {k : Nat} {reservoir : List T} {x : T} {S : Finset T}

/-- A slot that is hit loses its item to the new one. -/
theorem toFinset_set (hd : reservoir.Nodup) (hx : x ∉ reservoir) {r : Nat}
    (hr : r < reservoir.length) :
    (reservoir.set r x).toFinset = insert x (reservoir.toFinset.erase reservoir[r]) := by
  ext y
  simp only [List.mem_toFinset, Finset.mem_insert, Finset.mem_erase, ne_eq]
  constructor
  · intro hy
    obtain ⟨j, hj, hget⟩ := List.getElem_of_mem hy
    rw [List.getElem_set] at hget
    by_cases hjr : r = j
    · rw [if_pos hjr] at hget
      exact Or.inl hget.symm
    · rw [if_neg hjr] at hget
      rw [List.length_set] at hj
      refine Or.inr ⟨fun heq => hjr ?_, hget ▸ List.getElem_mem hj⟩
      exact hd.getElem_inj_iff.mp (heq.symm.trans hget.symm)
  · rintro (rfl | ⟨hne, hy⟩)
    · exact List.mem_set hr y
    · obtain ⟨j, hj, rfl⟩ := List.getElem_of_mem hy
      refine List.mem_iff_getElem.mpr ⟨j, by rwa [List.length_set], ?_⟩
      rw [List.getElem_set, if_neg]
      rintro rfl
      exact hne rfl

/-- A set without the candidate: the draws that miss, if the reservoir is that set. -/
theorem card_draws_without (n : Nat) (hlen : reservoir.length = k) (hxS : x ∉ S) :
    ((Finset.range (n + 1)).filter fun r => (place k reservoir x r).toFinset = S).card =
      if reservoir.toFinset = S then n + 1 - k else 0 := by
  -- a draw that hits puts the candidate in, so only misses count
  have hiff : ∀ r, (place k reservoir x r).toFinset = S ↔ k ≤ r ∧ reservoir.toFinset = S := by
    intro r
    by_cases hr : r < k
    · rw [place, if_pos hr]
      constructor
      · intro heq
        rw [← heq] at hxS
        exact absurd (List.mem_toFinset.mpr (List.mem_set (hlen ▸ hr) x)) hxS
      · intro h
        omega
    · rw [place, if_neg hr]
      exact ⟨fun h => ⟨by omega, h⟩, And.right⟩
  simp only [hiff]
  by_cases heq : reservoir.toFinset = S
  · rw [if_pos heq]
    have hset : (Finset.range (n + 1)).filter (fun r => k ≤ r ∧ reservoir.toFinset = S) =
        Finset.Ico k (n + 1) := by
      ext r
      simp only [heq, Finset.mem_filter, Finset.mem_range, Finset.mem_Ico]
      tauto
    rw [hset, Nat.card_Ico]
  · rw [if_neg heq]
    simp [heq]

/-- A set with the candidate: the one draw that hits the item the set does not have,
    if the reservoir has the others. -/
theorem card_draws_with (n : Nat) (hlen : reservoir.length = k) (hkn : k ≤ n)
    (hd : reservoir.Nodup) (hx : x ∉ reservoir) (hxS : x ∈ S) (hS : S.card = k) :
    ((Finset.range (n + 1)).filter fun r => (place k reservoir x r).toFinset = S).card =
      if S.erase x ⊆ reservoir.toFinset then 1 else 0 := by
  -- the draw replaces the one item of the reservoir that the set lacks
  have hiff : ∀ r, (place k reservoir x r).toFinset = S ↔
      ∃ h : r < reservoir.length, reservoir.toFinset.erase reservoir[r] = S.erase x := by
    intro r
    by_cases hr : r < k
    · have hr' : r < reservoir.length := by omega
      have hxr : x ∉ reservoir.toFinset.erase reservoir[r] := by
        intro h
        exact hx (List.mem_toFinset.mp (Finset.mem_of_mem_erase h))
      rw [place, if_pos hr, toFinset_set hd hx hr']
      constructor
      · intro heq
        refine ⟨hr', ?_⟩
        rw [← heq, Finset.erase_insert hxr]
      · rintro ⟨_, heq⟩
        rw [heq, Finset.insert_erase hxS]
    · rw [place, if_neg hr]
      constructor
      · intro heq
        exact absurd (List.mem_toFinset.mp (heq ▸ hxS)) hx
      · rintro ⟨h, -⟩
        omega
  simp only [hiff]
  by_cases hsub : S.erase x ⊆ reservoir.toFinset
  · rw [if_pos hsub, Finset.card_eq_one]
    -- the reservoir is one larger than the part of it that the set has
    have hone : (S.erase x).card + 1 = reservoir.toFinset.card := by
      rw [Finset.card_erase_add_one hxS, hS, List.toFinset_card_of_nodup hd, hlen]
    obtain ⟨y, hyS, hy⟩ := Finset.exists_eq_insert_iff.mpr ⟨hsub, hone⟩
    have hyR : y ∈ reservoir.toFinset := hy ▸ Finset.mem_insert_self y _
    obtain ⟨r, hr, hget⟩ := List.getElem_of_mem (List.mem_toFinset.mp hyR)
    refine ⟨r, ?_⟩
    ext j
    simp only [Finset.mem_filter, Finset.mem_range, Finset.mem_singleton]
    constructor
    · rintro ⟨-, hj, heq⟩
      have hnot : reservoir[j] ∉ S.erase x := by
        rw [← heq]
        exact Finset.notMem_erase _ _
      have hin : reservoir[j] ∈ insert y (S.erase x) := by
        rw [hy]
        exact List.mem_toFinset.mpr (List.getElem_mem hj)
      have hj' := (Finset.mem_insert.mp hin).resolve_right hnot
      exact hd.getElem_inj_iff.mp (hj'.trans hget.symm)
    · rintro rfl
      refine ⟨by omega, hr, ?_⟩
      rw [hget, ← hy, Finset.erase_insert hyS]
  · rw [if_neg hsub, Finset.card_eq_zero, Finset.filter_eq_empty_iff]
    rintro r - ⟨hr, heq⟩
    exact hsub (heq ▸ Finset.erase_subset _ _)

end Draws

/-! ## The count -/

section Count

/-- All answers for `m` candidates after the first `k`. -/
def answersOf (k : Nat) : Nat → Finset (List Nat)
  | 0 => {[]}
  | m + 1 => (answersOf k m ×ˢ Finset.range (k + m + 1)).map
      ⟨fun p => p.1 ++ [p.2], fun p q h => by
        obtain ⟨h1, h2⟩ := List.append_inj' h rfl
        exact Prod.ext h1 (List.singleton_inj.mp h2)⟩

variable {k m : Nat}

theorem mem_answersOf_succ {answers : List Nat} {r : Nat} :
    answers ++ [r] ∈ answersOf k (m + 1) ↔ answers ∈ answersOf k m ∧ r < k + m + 1 := by
  simp only [answersOf, Finset.mem_map, Finset.mem_product, Finset.mem_range]
  constructor
  · rintro ⟨p, ⟨hp, hr⟩, heq⟩
    obtain ⟨h1, h2⟩ := List.append_inj' heq rfl
    exact ⟨h1 ▸ hp, List.singleton_inj.mp h2 ▸ hr⟩
  · rintro ⟨ha, hr⟩
    exact ⟨(answers, r), ⟨ha, hr⟩, rfl⟩

theorem answers_concat {init : List Nat} {r : Nat} :
    Answers k (k + (m + 1)) (init ++ [r]) ↔ Answers k (k + m) init ∧ r < k + m + 1 := by
  constructor
  · intro h
    have hlen := h.length
    rw [List.length_append, List.length_singleton] at hlen
    refine ⟨⟨by omega, fun j r' hget => h.below j r' ?_⟩, ?_⟩
    · rw [List.getElem?_append_left (List.getElem?_eq_some_iff.mp hget).1]
      exact hget
    · have hr := h.below init.length r List.getElem?_concat_length
      omega
  · rintro ⟨h, hr⟩
    have hlen := h.length
    refine ⟨by simp; omega, fun j r' hget => ?_⟩
    rcases Nat.lt_or_ge j init.length with hj | hj
    · rw [List.getElem?_append_left hj] at hget
      exact h.below j r' hget
    · rw [List.getElem?_append_right hj, List.getElem?_singleton] at hget
      split at hget
      · obtain rfl := Option.some.inj hget
        omega
      · exact nomatch hget

theorem mem_answersOf : ∀ {m : Nat} {answers : List Nat},
    answers ∈ answersOf k m ↔ Answers k (k + m) answers := by
  intro m
  induction m with
  | zero =>
      intro answers
      constructor
      · intro h
        obtain rfl := Finset.mem_singleton.mp h
        exact ⟨by simp, by simp⟩
      · intro h
        have hlen := h.length
        rw [Nat.add_zero, Nat.sub_self] at hlen
        exact Finset.mem_singleton.mpr (List.length_eq_zero_iff.mp hlen)
  | succ m ih =>
      intro answers
      rcases List.eq_nil_or_concat answers with rfl | ⟨init, r, rfl⟩
      · constructor
        · intro h
          simp only [answersOf, Finset.mem_map] at h
          obtain ⟨p, -, heq⟩ := h
          exact absurd heq (List.append_ne_nil_of_right_ne_nil _ (List.cons_ne_nil _ _))
        · intro h
          have hlen := h.length
          rw [List.length_nil] at hlen
          omega
      · rw [List.concat_eq_append, mem_answersOf_succ, ih, answers_concat]

variable [DecidableEq T]

/-- The answers after which the reservoir is the set `S`. -/
def leadingTo (k : Nat) (xs : List T) (S : Finset T) : Finset (List Nat) :=
  (answersOf k (xs.length - k)).filter fun answers => (drawn k xs answers).toFinset = S

variable {xs : List T} {x : T} {S : Finset T}

/-- One more candidate: for each of the answers so far, the draws that lead to `S`. -/
theorem card_leadingTo_concat (hk : k ≤ xs.length) :
    (leadingTo k (xs ++ [x]) S).card =
      ∑ answers ∈ answersOf k (xs.length - k), ((Finset.range (xs.length + 1)).filter
        fun r => (place k (drawn k xs answers) x r).toFinset = S).card := by
  have hlen : (xs ++ [x]).length - k = xs.length - k + 1 := by simp; omega
  have hrange : k + (xs.length - k) + 1 = xs.length + 1 := by omega
  rw [leadingTo, hlen, Finset.card_filter, answersOf, Finset.sum_map, Finset.sum_product, hrange]
  refine Finset.sum_congr rfl fun answers ha => ?_
  rw [Finset.card_filter]
  refine Finset.sum_congr rfl fun r _ => ?_
  have hanswers : answers.length = xs.length - k := by
    have h := (mem_answersOf.mp ha).length
    omega
  show (if (drawn k (xs ++ [x]) (answers ++ [r])).toFinset = S then 1 else 0) = _
  rw [drawn_concat x r hk hanswers]

/-- The reservoirs that have all of `S'`: one for each further item, and each of them as
    often as `count` says. -/
theorem card_supersets {n count : Nat} {answers : Finset (List Nat)} {S' : Finset T}
    (hlen : xs.length = n) (hd : xs.Nodup) (hk : k ≤ n) (hS' : S' ⊆ xs.toFinset)
    (hcard : S'.card + 1 = k)
    (hdrawn : ∀ a ∈ answers, (drawn k xs a).toFinset ⊆ xs.toFinset ∧
      (drawn k xs a).toFinset.card = k)
    (hcount : ∀ S ⊆ xs.toFinset, S.card = k →
      (answers.filter fun a => (drawn k xs a).toFinset = S).card = count) :
    (answers.filter fun a => S' ⊆ (drawn k xs a).toFinset).card = (n + 1 - k) * count := by
  have hn : xs.toFinset.card = n := by rw [List.toFinset_card_of_nodup hd, hlen]
  -- such a reservoir is `S'` and one further item
  have hmaps : ∀ a ∈ answers.filter (fun a => S' ⊆ (drawn k xs a).toFinset),
      (drawn k xs a).toFinset ∈ (xs.toFinset \ S').image fun y => insert y S' := by
    intro a ha
    obtain ⟨hmem, hsub⟩ := Finset.mem_filter.mp ha
    obtain ⟨hin, hk'⟩ := hdrawn a hmem
    obtain ⟨y, hyS, hy⟩ := Finset.exists_eq_insert_iff.mpr ⟨hsub, hcard.trans hk'.symm⟩
    have hyR : y ∈ (drawn k xs a).toFinset := hy ▸ Finset.mem_insert_self y S'
    exact Finset.mem_image.mpr ⟨y, Finset.mem_sdiff.mpr ⟨hin hyR, hyS⟩, hy⟩
  have hinj : Set.InjOn (fun y => insert y S') (xs.toFinset \ S' : Finset T) := by
    intro y hy z hz heq
    exact S'.insert_inj_on (Finset.mem_sdiff.mp hy).2 (Finset.mem_sdiff.mp hz).2 heq
  rw [Finset.card_eq_sum_card_fiberwise hmaps,
    Finset.sum_congr rfl (g := fun _ => count), Finset.sum_const, smul_eq_mul,
    Finset.card_image_of_injOn hinj, Finset.card_sdiff_of_subset hS', hn]
  · congr 1
    omega
  · intro S hS
    obtain ⟨y, hy, rfl⟩ := Finset.mem_image.mp hS
    obtain ⟨hyX, hyS⟩ := Finset.mem_sdiff.mp hy
    rw [← hcount (insert y S') (Finset.insert_subset hyX hS')
      (by rw [Finset.card_insert_of_notMem hyS, hcard])]
    congr 1
    ext a
    simp only [Finset.mem_filter, and_assoc]
    constructor
    · rintro ⟨ha, -, heq⟩
      exact ⟨ha, heq⟩
    · rintro ⟨ha, heq⟩
      exact ⟨ha, heq ▸ Finset.subset_insert y S', heq⟩

theorem erase_subset_of_concat (hS : S ⊆ (xs ++ [x]).toFinset) :
    S.erase x ⊆ xs.toFinset := by
  intro y hy
  obtain ⟨hne, hyS⟩ := Finset.mem_erase.mp hy
  rcases List.mem_append.mp (List.mem_toFinset.mp (hS hyS)) with h | h
  · exact List.mem_toFinset.mpr h
  · exact absurd (List.mem_singleton.mp h) hne

/-- A set with the last candidate. -/
theorem card_leadingTo_with {count : Nat} (hk : 1 ≤ k) (hge : k ≤ xs.length)
    (hd : xs.Nodup) (hx : x ∉ xs) (hS : S ⊆ (xs ++ [x]).toFinset) (hcard : S.card = k)
    (hxS : x ∈ S)
    (hcount : ∀ S ⊆ xs.toFinset, S.card = k → (leadingTo k xs S).card = count) :
    (leadingTo k (xs ++ [x]) S).card = (xs.length + 1 - k) * count := by
  have hxR : ∀ a, x ∉ drawn k xs a := fun a h => hx (drawn_subset h)
  rw [card_leadingTo_concat hge, Finset.sum_congr rfl fun a _ => card_draws_with xs.length
    (length_drawn a hge) hge (nodup_drawn a hd) (hxR a) hxS hcard, ← Finset.card_filter]
  refine card_supersets rfl hd hge (erase_subset_of_concat hS) ?_ ?_ hcount
  · rw [Finset.card_erase_of_mem hxS]
    omega
  · intro a _
    refine ⟨fun y hy => ?_, ?_⟩
    · exact List.mem_toFinset.mpr (drawn_subset (List.mem_toFinset.mp hy))
    · rw [List.toFinset_card_of_nodup (nodup_drawn a hd), length_drawn a hge]

/-- A set without it. -/
theorem card_leadingTo_without {count : Nat} (hge : k ≤ xs.length)
    (hS : S ⊆ (xs ++ [x]).toFinset) (hcard : S.card = k) (hxS : x ∉ S)
    (hcount : ∀ S ⊆ xs.toFinset, S.card = k → (leadingTo k xs S).card = count) :
    (leadingTo k (xs ++ [x]) S).card = (xs.length + 1 - k) * count := by
  have hsub := erase_subset_of_concat hS
  rw [Finset.erase_eq_of_notMem hxS] at hsub
  have hold : ((answersOf k (xs.length - k)).filter
      fun a => (drawn k xs a).toFinset = S).card = count := hcount S hsub hcard
  rw [card_leadingTo_concat hge, Finset.sum_congr rfl fun a _ =>
      card_draws_without xs.length (length_drawn a hge) hxS,
    ← Finset.sum_filter, Finset.sum_const, smul_eq_mul, hold, Nat.mul_comm]

/-- Each subset of the size of the sample is drawn by equally many answers. -/
theorem card_leadingTo (hk : 1 ≤ k) (xs : List T) (hd : xs.Nodup) (hn : k ≤ xs.length) :
    ∀ S ⊆ xs.toFinset, S.card = k →
      (leadingTo k xs S).card = (xs.length - k).factorial := by
  induction xs using List.reverseRecOn with
  | nil =>
      rw [List.length_nil] at hn
      omega
  | append_singleton xs x ih =>
      intro S hS hcard
      rw [List.length_append, List.length_singleton] at hn ⊢
      obtain ⟨hdx, -, hdisj⟩ := List.nodup_append.mp hd
      have hx : x ∉ xs := fun h => hdisj x h x (List.mem_singleton_self x) rfl
      rcases Nat.lt_or_ge xs.length k with hlt | hge
      · -- the reservoir has just been filled, and holds everything
        have hfull : (xs ++ [x]).length = k := by simp; omega
        have hall : S = (xs ++ [x]).toFinset :=
          Finset.eq_of_subset_of_card_le hS (by
            rw [List.toFinset_card_of_nodup hd, hfull, hcard])
        have hzero : xs.length + 1 - k = 0 := by omega
        rw [leadingTo, hfull, Nat.sub_self, hzero, answersOf, Finset.filter_singleton,
          drawn_fill [] _ (le_of_eq hfull), if_pos hall.symm]
        rfl
      · have hsucc : xs.length + 1 - k = xs.length - k + 1 := by omega
        have hfact : (xs.length + 1 - k).factorial =
            (xs.length + 1 - k) * (xs.length - k).factorial := by
          rw [hsucc, Nat.factorial_succ]
        rw [hfact]
        by_cases hxS : x ∈ S
        · exact card_leadingTo_with hk hge hdx hx hS hcard hxS (ih hdx hge)
        · exact card_leadingTo_without hge hS hcard hxS (ih hdx hge)

end Count

/-! ## Uniformity -/

/-- **EXACTLY UNIFORM**: of `n` distinct candidates each `k`-element subset is the sample
    for `(n - k)!` of the answer sequences; and whatever the answers, the loop asks for
    one number below `i` for each `i` from `k + 1` to `n`, in this order. -/
theorem sample_uniform [DecidableEq T] {withCapacity : Nat → Option (List T)}
    {candidates : List T} {k : Nat} (hk : 1 ≤ k) (hn : k ≤ candidates.length)
    (hd : candidates.Nodup) (halloc : withCapacity k = some []) :
    (∀ answers : List Nat, answers.length = candidates.length - k → ∃ sample,
      reservoirSample withCapacity nextAnswer candidates k ⟨answers, []⟩ =
        some (sample, ⟨[], requestsFor k candidates.length⟩)) ∧
    ∀ S ⊆ candidates.toFinset, S.card = k →
      {answers : List Nat | Answers k candidates.length answers ∧ ∃ sample rng,
        reservoirSample withCapacity nextAnswer candidates k ⟨answers, []⟩ =
            some (sample, rng) ∧
          sample.toFinset = S}.ncard = (candidates.length - k).factorial := by
  refine ⟨fun answers hlen => ⟨drawn k candidates answers, ?_⟩, fun S hS hcard => ?_⟩
  · have hrun := sampling_append candidates answers [] hlen
    rw [List.append_nil] at hrun
    rw [reservoirSample_of_alloc hk halloc, hrun]
  -- the answers that lead to `S`, as a finite set to count in
  have hset : {answers : List Nat | Answers k candidates.length answers ∧ ∃ sample rng,
      reservoirSample withCapacity nextAnswer candidates k ⟨answers, []⟩ =
          some (sample, rng) ∧
        sample.toFinset = S} = (leadingTo k candidates S : Set (List Nat)) := by
    ext answers
    rw [Set.mem_ofPred_eq, reservoirSample_of_alloc hk halloc, leadingTo, Finset.mem_coe,
      Finset.mem_filter, mem_answersOf, Nat.add_sub_cancel' hn]
    constructor
    · rintro ⟨ha, sample, rng, hsome, heq⟩
      obtain ⟨rfl, -⟩ := Prod.mk.inj (Option.some.inj hsome)
      exact ⟨ha, heq⟩
    · rintro ⟨ha, heq⟩
      exact ⟨ha, _, _, rfl, heq⟩
  rw [hset, Set.ncard_coe_finset]
  exact card_leadingTo hk candidates hd hn S hS hcard

/-- Two of three candidates: the loop asks for one number below 3, and each pair is the
    sample for one of the three answers. -/
theorem sample_uniform_three :
    (∀ answers : List Nat, answers.length = 1 → ∃ sample,
      reservoirSample (fun _ => some []) nextAnswer [10, 20, 30] 2 ⟨answers, []⟩ =
        some (sample, ⟨[], [(0, 3)]⟩)) ∧
    {answers : List Nat | Answers 2 3 answers ∧ ∃ sample rng,
      reservoirSample (fun _ => some []) nextAnswer [10, 20, 30] 2 ⟨answers, []⟩ =
          some (sample, rng) ∧
        sample.toFinset = ({10, 30} : Finset Nat)}.ncard = (3 - 2).factorial := by
  have huniform := @sample_uniform Nat _ (fun _ => some []) [10, 20, 30] 2 (by decide)
    (by decide) (by decide) rfl
  exact ⟨huniform.1, huniform.2 {10, 30} (by decide) (by decide)⟩

end ReservoirSample
