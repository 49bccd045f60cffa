import Scorer.LockedStoreProofs

/-! # A locked value that only grows

    The changes of a locked value only move it up along a transitive relation `R`:
    a set that only gains members, a counter, a version.  The file moves up with it
    as long as a write succeeds only in a process whose value started above what it
    found in the file.

    * `Ascending`: the calls rise in call order, and the value is above them all;
    * `Grounded`: the value and the calls are above what the process found;
    * `settle_rises`: the step lemma, `rises_of_same` its trivial case. -/

namespace AscendingStore

open WriteOrder LockedStore

variable {σ β τ : Type} {R : σ → σ → Prop} {c : Codec σ β} {g h : Guarded σ β τ}
  {f : σ → σ}

/-- The calls rise, and the value is above every one of them. -/
structure Ascending (R : σ → σ → Prop) (g : Guarded σ β τ) : Prop where
  calls : g.calls.Pairwise R
  mem : ∀ v ∈ g.calls, R v g.mem

/-- The value and every call are above what the process found in the file. -/
structure Grounded (c : Codec σ β) (R : σ → σ → Prop) (g : Guarded σ β τ) : Prop where
  mem : ∀ v, g.file.base.bind c.decode = some v → R v g.mem
  calls : ∀ v, g.file.base.bind c.decode = some v → ∀ u ∈ g.calls, R v u

/-- Whatever a reader finds in `g`, a reader finds it or something above it in `h`. -/
def Rises (c : Codec σ β) (R : σ → σ → Prop) (g h : Guarded σ β τ) : Prop :=
  ∀ v, (content g.file).bind c.decode = some v →
    ∃ u, (content h.file).bind c.decode = some u ∧ R v u

/-- Where the file is the same, the order holds by reflexivity. -/
theorem rises_of_same [Std.Refl R] (hsame : content h.file = content g.file) :
    Rises c R g h :=
  fun v hv => ⟨v, by rw [hsame]; exact hv, Std.Refl.refl v⟩

/-- The content rises over two moves if it does over each. -/
theorem Rises.trans [IsTrans σ R] {k : Guarded σ β τ} (hgh : Rises c R g h)
    (hhk : Rises c R h k) : Rises c R g k := by
  intro v hv
  obtain ⟨u, hu, hvu⟩ := hgh v hv
  obtain ⟨w, hw, huw⟩ := hhk u hu
  exact ⟨w, hw, IsTrans.trans v u w hvu huw⟩

/-! ## What each operation keeps -/

/-- A file that was just opened has no calls to be in order. -/
theorem opened_ascending (mem : σ) (base : Option β) :
    Ascending R (opened mem base : Guarded σ β τ) where
  calls := List.Pairwise.nil
  mem := fun _ hv => nomatch hv

/-- What was read from it is under what is in memory. -/
theorem opened_grounded {mem : σ} {base : Option β}
    (hbase : ∀ v, base.bind c.decode = some v → R v mem) :
    Grounded c R (opened mem base : Guarded σ β τ) where
  mem := hbase
  calls := fun _ _ _ hu => nomatch hu

/-- A call writes what is in memory, which is over all that was written. -/
theorem callWrite_ascending [Std.Refl R] (hg : Ascending R g) :
    Ascending R (callWrite c g) where
  calls := List.pairwise_append.mpr
    ⟨hg.calls, List.pairwise_singleton R g.mem, fun v hv u hu =>
      List.mem_singleton.mp hu ▸ hg.mem v hv⟩
  mem := by
    intro v hv
    rcases List.mem_append.mp hv with hold | hnew
    · exact hg.mem v hold
    · rw [List.mem_singleton.mp hnew]
      exact Std.Refl.refl g.mem

/-- A call changes neither the memory nor the base. -/
theorem callWrite_grounded (hg : Grounded c R g) : Grounded c R (callWrite c g) where
  mem := hg.mem
  calls := by
    intro v hv u hu
    rcases List.mem_append.mp hu with hold | hnew
    · exact hg.calls v hv u hold
    · rw [List.mem_singleton.mp hnew]
      exact hg.mem v hv

/-- A change that moves the value up, then its write call. -/
theorem critical_ascending [Std.Refl R] [IsTrans σ R] (hg : Ascending R g)
    (hf : R g.mem (f g.mem)) : Ascending R (critical c f g) :=
  callWrite_ascending (g := { g with mem := f g.mem })
    ⟨hg.calls, fun v hv => IsTrans.trans v g.mem (f g.mem) (hg.mem v hv) hf⟩

/-- A change upwards keeps the base below. -/
theorem critical_grounded [IsTrans σ R] (hg : Grounded c R g)
    (hf : R g.mem (f g.mem)) : Grounded c R (critical c f g) :=
  callWrite_grounded (g := { g with mem := f g.mem })
    ⟨fun v hv => IsTrans.trans v g.mem (f g.mem) (hg.mem v hv) hf, hg.calls⟩

/-- A write that settles is one of the calls. -/
theorem settle_ascending {i : Nat} {ok : Bool} (hg : Ascending R g)
    (h1 : settleWrite g i ok = some h) : Ascending R h := by
  obtain ⟨f, -, rfl⟩ := settleWrite_cases h1
  exact ⟨hg.calls, hg.mem⟩

/-- So the base stays below when it becomes that write. -/
theorem settle_grounded {i : Nat} {ok : Bool} (hg : Grounded c R g)
    (h1 : settleWrite g i ok = some h) : Grounded c R h := by
  obtain ⟨f, hf, rfl⟩ := settleWrite_cases h1
  have hbase := settle_base hf
  exact ⟨fun v hv => hg.mem v (hbase ▸ hv), fun v hv => hg.calls v (hbase ▸ hv)⟩

/-! ## The file rises -/

/-- **RISE**: a completion leaves the file as it is or puts something above it
    there, when the process is grounded or the completion is a failure. -/
theorem settle_rises [Std.Refl R] {i : Nat} {ok : Bool} (hc : Coherent c g)
    (hg : Ascending R g) (hground : ok = true → Grounded c R g)
    (h1 : settleWrite g i ok = some h) : Rises c R g h := by
  have hch := settleWrite_coherent hc h1
  obtain ⟨f, hf, rfl⟩ := settleWrite_cases h1
  cases ok with
  | false => exact rises_of_same (settle_failed_content hf)
  | true =>
      rcases settle_content hf with hsame | ⟨k, hk, hmay⟩
      · exact rises_of_same hsame
      · obtain ⟨u, hu, hcont⟩ := content_of_call hch hk
        intro v hv
        refine ⟨u, by rw [hcont]; exact c.decode_encode u, ?_⟩
        -- what was there is an earlier call, or what the process found
        cases hl : g.file.landed with
        | none =>
            rw [content, hl] at hv
            exact (hground rfl).calls v hv u (List.mem_of_getElem? hu)
        | some l =>
            obtain ⟨w, hw, hold⟩ := content_of_call hc hl
            rw [hold] at hv
            obtain rfl := Option.some.inj ((c.decode_encode w).symm.trans hv)
            rcases Nat.lt_or_eq_of_le (hmay l hl) with hlt | heq
            · obtain ⟨hl1, hw1⟩ := List.getElem?_eq_some_iff.mp hw
              obtain ⟨hk1, hu1⟩ := List.getElem?_eq_some_iff.mp hu
              rw [← hw1, ← hu1]
              exact List.pairwise_iff_getElem.mp hg.calls l k hl1 hk1 hlt
            · subst heq
              obtain rfl := Option.some.inj (hw.symm.trans hu)
              exact Std.Refl.refl w

/-- A change of the memory does not reach the file. -/
theorem critical_rises [Std.Refl R] (hc : Coherent c g) :
    Rises c R g (critical c f g) :=
  rises_of_same (content_issue hc.ordered _)

end AscendingStore
