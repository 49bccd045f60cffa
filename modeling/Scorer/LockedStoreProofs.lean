import Scorer.LabelledRunProofs
import Scorer.WriteOrderProofs

/-! # A locked value with a write-behind file

    Any number of tasks share a value behind a mutex.  A critical section takes
    the lock, changes the value, encodes it into a write call and releases the
    lock; the write completes later, outside of the lock, in any order with the
    others.

    * `step` is the interleaving at the grain of these single moves;
    * `Coherent`: the calls carry the encodings of the values of their time, and
      between a change and its write call is the only time at which the newest
      call is not the value itself;
    * `content_snapshot`, `content_current`: what the file holds, at any time and
      once the newest call has succeeded;
    * `critical_reach`: a whole critical section is a run of `step`, so a model
      may take it in one move. -/

namespace LockedStore

open LabelledRun WriteOrder

variable {σ β τ μ : Type}

/-- An encoding that decodes to what was encoded. -/
structure Codec (σ β : Type) where
  encode : σ → β
  decode : β → Option σ
  decode_encode : ∀ s, decode (encode s) = some s

/-- The encoding of a value as itself. -/
def Codec.plain (σ : Type) : Codec σ σ := ⟨id, some, fun _ => rfl⟩

/-- How far the holder of the lock is through its critical section. -/
inductive Section (τ : Type) where
  | free
  | locked (t : τ)
  | mutated (t : τ)
  | written (t : τ)
  deriving DecidableEq, Repr

/-- The value, the lock, the file, and the value at each write call so far. -/
structure Guarded (σ β τ : Type) where
  mem   : σ
  lock  : Section τ
  file  : OrderedFile β
  calls : List σ

/-- A value in memory whose file is as the last process left it. -/
def opened (mem : σ) (base : Option β) : Guarded σ β τ :=
  ⟨mem, .free, WriteOrder.opened base, []⟩

/-- What a task does with the store: take the lock, change the map, ask for a write of it,
    give the lock back, and see the write succeed or fail. -/
inductive LockAction (τ μ : Type) where
  | acquire (t : τ)
  | mutate (t : τ) (m : μ)
  | write (t : τ)
  | release (t : τ)
  | settle (i : Nat) (ok : Bool)
  deriving Repr

/-- Encode the value and issue the write. -/
def callWrite (c : Codec σ β) (g : Guarded σ β τ) : Guarded σ β τ :=
  { g with file := issue g.file (c.encode g.mem), calls := g.calls ++ [g.mem] }

/-- The write call `i` completes. -/
def settleWrite (g : Guarded σ β τ) (i : Nat) (ok : Bool) : Option (Guarded σ β τ) :=
  (settle g.file i ok).map fun f => { g with file := f }

/-- One move of one task, or one completion. -/
def step [DecidableEq τ] (c : Codec σ β) (apply : μ → σ → σ) (g : Guarded σ β τ) :
    LockAction τ μ → Option (Guarded σ β τ)
  | .acquire t => if g.lock = .free then some { g with lock := .locked t } else none
  | .mutate t m =>
      if g.lock = .locked t then some { g with mem := apply m g.mem, lock := .mutated t }
      else none
  | .write t =>
      if g.lock = .mutated t then some { callWrite c g with lock := .written t } else none
  | .release t =>
      -- a section that only reads releases straight away
      if g.lock = .locked t ∨ g.lock = .written t then some { g with lock := .free } else none
  | .settle i ok => settleWrite g i ok

/-- The holder has changed the value and has not issued the write yet. -/
def Unwritten (g : Guarded σ β τ) : Prop := ∃ t, g.lock = .mutated t

/-- Every call so far has completed. -/
def Quiet (f : OrderedFile β) : Prop := ∀ w ∈ f.writes, w.2 ≠ .outstanding

/-- The newest call has succeeded. -/
def LastSucceeded (f : OrderedFile β) : Prop :=
  f.writes.getLast?.map Prod.snd = some .succeeded

instance quietDecidable (f : OrderedFile β) : Decidable (Quiet f) :=
  inferInstanceAs (Decidable (∀ w ∈ f.writes, w.2 ≠ .outstanding))

instance lastSucceededDecidable (f : OrderedFile β) : Decidable (LastSucceeded f) :=
  inferInstanceAs (Decidable (f.writes.getLast?.map Prod.snd = some .succeeded))

/-- What holds between a locked value and its file at every point. -/
structure Coherent (c : Codec σ β) (g : Guarded σ β τ) : Prop where
  ordered : Ordered g.file
  encoded : g.file.writes.map Prod.fst = g.calls.map c.encode
  newest : ¬ Unwritten g → g.calls ≠ [] → g.calls.getLast? = some g.mem

/-- `g` is an earlier state of `h`: its calls are among those of `h`, and the call
    in the file has not moved back. -/
structure Earlier (g h : Guarded σ β τ) : Prop where
  calls : g.calls <+: h.calls
  file : Before g.file h.file

theorem Earlier.refl (g : Guarded σ β τ) : Earlier g g :=
  ⟨List.prefix_rfl, Before.refl _⟩

theorem Earlier.trans {g h k : Guarded σ β τ} (h1 : Earlier g h) (h2 : Earlier h k) :
    Earlier g k :=
  ⟨h1.calls.trans h2.calls, h1.file.trans h2.file⟩

variable {c : Codec σ β} {g h : Guarded σ β τ}

/-- A store that was just opened has made no call. -/
theorem opened_coherent (mem : σ) (base : Option β) :
    Coherent c (opened mem base : Guarded σ β τ) where
  ordered := opened_ordered base
  encoded := rfl
  newest := fun _ hne => absurd rfl hne

/-- A call hands over what is in memory. -/
theorem callWrite_coherent (hg : Coherent c g) : Coherent c (callWrite c g) where
  ordered := issue_ordered hg.ordered _
  encoded := by simp [callWrite, hg.encoded]
  newest := fun _ _ => by simp [callWrite]

theorem callWrite_earlier (g : Guarded σ β τ) : Earlier g (callWrite c g) :=
  ⟨List.prefix_append _ _, issue_before _ _⟩

/-- When a write settles only the file changes. -/
theorem settleWrite_cases {i : Nat} {ok : Bool} (h1 : settleWrite g i ok = some h) :
    ∃ f, settle g.file i ok = some f ∧ h = { g with file := f } := by
  obtain ⟨f, hf, hh⟩ := Option.map_eq_some_iff.mp h1
  exact ⟨f, hf, hh.symm⟩

/-- The file then holds one of the calls, or what it held. -/
theorem settleWrite_coherent {i : Nat} {ok : Bool} (hg : Coherent c g)
    (h1 : settleWrite g i ok = some h) : Coherent c h := by
  obtain ⟨f, hf, rfl⟩ := settleWrite_cases h1
  exact ⟨settle_ordered hg.ordered hf, (settle_calls hf).trans hg.encoded, hg.newest⟩

theorem settleWrite_earlier {i : Nat} {ok : Bool} (h1 : settleWrite g i ok = some h) :
    Earlier g h := by
  obtain ⟨f, hf, rfl⟩ := settleWrite_cases h1
  exact ⟨List.prefix_rfl, settle_before hf⟩

section Moves

variable [DecidableEq τ] {apply : μ → σ → σ} {a : LockAction τ μ}

/-- One move keeps the value and its file coherent. -/
theorem step_coherent (hg : Coherent c g) (hs : step c apply g a = some h) :
    Coherent c h := by
  cases a with
  | acquire t =>
      simp only [step, Option.ite_none_right_eq_some, Option.some.injEq] at hs
      obtain ⟨hfree, rfl⟩ := hs
      -- the lock was free, so the newest write is that of the value
      refine ⟨hg.ordered, hg.encoded, fun _ hne => hg.newest ?_ hne⟩
      rintro ⟨u, hu⟩
      exact nomatch hfree.symm.trans hu
  | mutate t m =>
      simp only [step, Option.ite_none_right_eq_some, Option.some.injEq] at hs
      obtain ⟨-, rfl⟩ := hs
      exact ⟨hg.ordered, hg.encoded, fun hw => absurd ⟨t, rfl⟩ hw⟩
  | write t =>
      simp only [step, Option.ite_none_right_eq_some, Option.some.injEq] at hs
      obtain ⟨-, rfl⟩ := hs
      have hc := callWrite_coherent hg
      exact ⟨hc.ordered, hc.encoded, fun _ _ => by simp [callWrite]⟩
  | release t =>
      simp only [step, Option.ite_none_right_eq_some, Option.some.injEq] at hs
      obtain ⟨hheld, rfl⟩ := hs
      refine ⟨hg.ordered, hg.encoded, fun _ hne => hg.newest ?_ hne⟩
      rintro ⟨u, hu⟩
      rcases hheld with h1 | h1 <;> exact nomatch h1.symm.trans hu
  | settle i ok => exact settleWrite_coherent hg hs

/-- One move only adds calls, and moves the call in the file forward. -/
theorem step_earlier (hs : step c apply g a = some h) : Earlier g h := by
  cases a with
  | acquire t =>
      simp only [step, Option.ite_none_right_eq_some, Option.some.injEq] at hs
      obtain ⟨-, rfl⟩ := hs
      exact ⟨List.prefix_rfl, Before.refl _⟩
  | mutate t m =>
      simp only [step, Option.ite_none_right_eq_some, Option.some.injEq] at hs
      obtain ⟨-, rfl⟩ := hs
      exact ⟨List.prefix_rfl, Before.refl _⟩
  | write t =>
      simp only [step, Option.ite_none_right_eq_some, Option.some.injEq] at hs
      obtain ⟨-, rfl⟩ := hs
      have he := callWrite_earlier (c := c) g
      exact ⟨he.calls, he.file⟩
  | release t =>
      simp only [step, Option.ite_none_right_eq_some, Option.some.injEq] at hs
      obtain ⟨-, rfl⟩ := hs
      exact ⟨List.prefix_rfl, Before.refl _⟩
  | settle i ok => exact settleWrite_earlier hs

end Moves

/-! ## What the file holds -/

/-- The file holds the encoding of the call that has landed. -/
theorem content_of_call (hg : Coherent c g) {k : Nat} (hk : g.file.landed = some k) :
    ∃ v, g.calls[k]? = some v ∧ content g.file = some (c.encode v) := by
  have hb := hg.ordered.bounded k hk
  have hlen := congrArg List.length hg.encoded
  simp only [List.length_map] at hlen
  have hget : g.calls[k]? = some g.calls[k] := List.getElem?_eq_getElem (by omega)
  refine ⟨_, hget, ?_⟩
  rw [content_of_landed hk, hg.encoded, List.getElem?_map, hget]
  rfl

/-- **SNAPSHOT**: once some write has succeeded, the file holds the encoding of
    the value at one of the calls. -/
theorem content_snapshot (hg : Coherent c g)
    (hok : ∃ i, status g.file i = some .succeeded) :
    ∃ k v, g.file.landed = some k ∧ g.calls[k]? = some v ∧
      content g.file = some (c.encode v) := by
  obtain ⟨i, hi⟩ := hok
  obtain ⟨k, hk, -⟩ := hg.ordered.covered i hi
  obtain ⟨v, hv, hcont⟩ := content_of_call hg hk
  exact ⟨k, v, hk, hv, hcont⟩

/-- **CURRENT**: once the newest call has succeeded, and outside of the window
    between a change and its write call, the file holds the encoding of the value. -/
theorem content_encoded (hg : Coherent c g) (hlast : LastSucceeded g.file)
    (hw : ¬ Unwritten g) : content g.file = some (c.encode g.mem) := by
  have hok : status g.file (g.file.writes.length - 1) = some .succeeded := by
    rw [status, ← List.getLast?_eq_getElem?]
    exact hlast
  obtain ⟨k, hk, hle⟩ := hg.ordered.covered _ hok
  have hb := hg.ordered.bounded k hk
  have hlen := congrArg List.length hg.encoded
  simp only [List.length_map] at hlen
  have hcalls : g.calls ≠ [] := by
    intro hnil
    rw [hnil, List.length_nil] at hlen
    omega
  -- no call comes after the newest, so it is the one in the file
  have hk' : k = g.calls.length - 1 := by omega
  have hget : g.calls[k]? = some g.mem := by
    rw [hk', ← List.getLast?_eq_getElem?]
    exact hg.newest hw hcalls
  rw [content_of_landed hk, hg.encoded, List.getElem?_map, hget]
  rfl

/-- So the file decodes to the value. -/
theorem content_current (hg : Coherent c g) (hlast : LastSucceeded g.file)
    (hw : ¬ Unwritten g) : (content g.file).bind c.decode = some g.mem := by
  rw [content_encoded hg hlast hw]
  exact c.decode_encode g.mem

/-! ## Whole critical sections -/

/-- A critical section in one move: change the value and issue its write. -/
def critical (c : Codec σ β) (f : σ → σ) (g : Guarded σ β τ) : Guarded σ β τ :=
  callWrite c { g with mem := f g.mem }

/-- A critical section asks for a write of the changed map. -/
@[simp] theorem critical_file (f : σ → σ) :
    (critical c f g).file = issue g.file (c.encode (f g.mem)) := rfl

/-- **ATOMICITY**: with the lock free, the four moves of a critical section lead
    to the state that `critical` gives in one. -/
theorem critical_reach [DecidableEq τ] {apply : μ → σ → σ} (t : τ) (m : μ)
    (hfree : g.lock = .free) :
    Reach (step c apply) anyStep g (critical c (apply m) g) := by
  have h1 : step c apply g (.acquire t) = some { g with lock := .locked t } := if_pos hfree
  have h2 : step c apply { g with lock := .locked t } (.mutate t m)
      = some { g with mem := apply m g.mem, lock := .mutated t } := if_pos rfl
  have h3 : step c apply { g with mem := apply m g.mem, lock := .mutated t } (.write t)
      = some { critical c (apply m) g with lock := .written t } := if_pos rfl
  have h4 : step c apply { critical c (apply m) g with lock := .written t } (.release t)
      = some (critical c (apply m) g) := by
    rw [step, if_pos (Or.inr rfl)]
    simp only [critical, callWrite, hfree]
  exact (((reach_step trivial h1).trans (reach_step trivial h2)).trans
    (reach_step trivial h3)).trans (reach_step trivial h4)

/-! ## Properties that outlive the process

    `HoldsFrom P g w`: `P` holds of the value and of every snapshot from the
    `w`-th call on.  `Lasting c P g`: `P` holds of whatever a reader of the file
    finds, now and after any outstanding calls have landed. -/

/-- A property of the map in memory and of each call from the `w`-th on. -/
structure HoldsFrom (P : σ → Prop) (g : Guarded σ β τ) (w : Nat) : Prop where
  mem : P g.mem
  calls : ∀ j v, w ≤ j → g.calls[j]? = some v → P v

/-- The `w`-th call or a later one is in the file. -/
def Landed (g : Guarded σ β τ) (w : Nat) : Prop :=
  ∃ k, g.file.landed = some k ∧ w ≤ k

/-- The `j`-th call is in the file or may still land. -/
def MayLand (g : Guarded σ β τ) (j : Nat) : Prop :=
  ∀ k, g.file.landed = some k → k ≤ j

/-- A property that a crash cannot undo: it holds in memory, in the file, and in every
    call that may still reach the file. -/
structure Lasting (c : Codec σ β) (P : σ → Prop) (g : Guarded σ β τ) : Prop where
  mem : P g.mem
  file : ∀ v, (content g.file).bind c.decode = some v → P v
  calls : ∀ j v, MayLand g j → g.calls[j]? = some v → P v

variable {P : σ → Prop} {f : σ → σ} {w : Nat}

private theorem getElem?_snoc {L : List σ} {x v : σ} {j : Nat}
    (hj : (L ++ [x])[j]? = some v) : L[j]? = some v ∨ j = L.length ∧ v = x := by
  by_cases hlt : j < L.length
  · rw [List.getElem?_append_left hlt] at hj
    exact Or.inl hj
  · rw [List.getElem?_append_right (by omega)] at hj
    cases hsub : j - L.length with
    | zero =>
        rw [hsub] at hj
        exact Or.inr ⟨by omega, (Option.some.inj hj).symm⟩
    | succ n =>
        rw [hsub] at hj
        exact nomatch hj

/-- The section that makes `P` true makes it hold from its own call on. -/
theorem holdsFrom_new (hf : P (f g.mem)) :
    HoldsFrom P (critical c f g) g.calls.length where
  mem := hf
  calls := by
    intro j v hj hget
    rcases getElem?_snoc hget with hold | ⟨-, rfl⟩
    · have hlt : j < g.calls.length := (List.getElem?_eq_some_iff.mp hold).1
      omega
    · exact hf

/-- A change that keeps the property keeps it from there on. -/
theorem holdsFrom_critical (hg : HoldsFrom P g w) (hf : P (f g.mem)) :
    HoldsFrom P (critical c f g) w where
  mem := hf
  calls := by
    intro j v hj hget
    rcases getElem?_snoc hget with hold | ⟨-, rfl⟩
    · exact hg.calls j v hj hold
    · exact hf

/-- A write that settles changes neither memory nor calls. -/
theorem holdsFrom_settle {i : Nat} {ok : Bool} (hg : HoldsFrom P g w)
    (h1 : settleWrite g i ok = some h) : HoldsFrom P h w := by
  obtain ⟨f, -, rfl⟩ := settleWrite_cases h1
  exact ⟨hg.mem, hg.calls⟩

/-- Later writes overwrite with later calls only. -/
theorem landed_settle {i : Nat} {ok : Bool} (hg : Landed g w)
    (h1 : settleWrite g i ok = some h) : Landed h w := by
  obtain ⟨f, hf, rfl⟩ := settleWrite_cases h1
  obtain ⟨k, hk, hwk⟩ := hg
  obtain ⟨l, hl, hkl⟩ := settle_landed_mono hf hk
  exact ⟨l, hl, Nat.le_trans hwk hkl⟩

/-- Once a call from which `P` holds has landed, the file decodes to a value
    with `P`. -/
theorem content_holds (hg : Coherent c g) (hP : HoldsFrom P g w) (hl : Landed g w) :
    ∃ v, (content g.file).bind c.decode = some v ∧ P v := by
  obtain ⟨k, hk, hwk⟩ := hl
  obtain ⟨v, hv, hcont⟩ := content_of_call hg hk
  exact ⟨v, by rw [hcont]; exact c.decode_encode v, hP.calls k v hwk hv⟩

/-- Once a call with the property has landed, the property lasts. -/
theorem lasting_of_landed (hg : Coherent c g) (hP : HoldsFrom P g w) (hl : Landed g w) :
    Lasting c P g where
  mem := hP.mem
  file := by
    intro v hv
    obtain ⟨u, hu, hPu⟩ := content_holds hg hP hl
    obtain rfl := Option.some.inj (hv.symm.trans hu)
    exact hPu
  calls := by
    intro j v hj hget
    obtain ⟨k, hk, hwk⟩ := hl
    exact hP.calls j v (Nat.le_trans hwk (hj k hk)) hget

theorem lasting_critical (hc : Coherent c g) (hg : Lasting c P g) (hf : P (f g.mem)) :
    Lasting c P (critical c f g) where
  mem := hf
  file := by
    intro v hv
    rw [critical_file, content_issue hc.ordered] at hv
    exact hg.file v hv
  calls := by
    intro j v hj hget
    rcases getElem?_snoc hget with hold | ⟨-, rfl⟩
    · exact hg.calls j v hj hold
    · exact hf

theorem lasting_settle {i : Nat} {ok : Bool} (hc : Coherent c g) (hg : Lasting c P g)
    (h1 : settleWrite g i ok = some h) : Lasting c P h := by
  have hch := settleWrite_coherent hc h1
  obtain ⟨f, hf, rfl⟩ := settleWrite_cases h1
  refine ⟨hg.mem, ?_, ?_⟩
  · intro v hv
    -- the file is as before, or has the content of a call that could still land
    rcases settle_content hf with hsame | ⟨k, hk, hmay⟩
    · rw [show content f = content g.file from hsame] at hv
      exact hg.file v hv
    · obtain ⟨u, hu, hcont⟩ := content_of_call hch hk
      rw [hcont] at hv
      obtain rfl := Option.some.inj ((c.decode_encode u).symm.trans hv)
      exact hg.calls k u hmay hu
  · intro j v hj hget
    refine hg.calls j v (fun k hk => ?_) hget
    obtain ⟨l, hl, hkl⟩ := settle_landed_mono hf hk
    exact Nat.le_trans hkl (hj l hl)

/-- A process that starts to write: what it read has `P`, and so has what it makes
    of it. -/
theorem lasting_opened {mem : σ} {base : Option β} (hmem : P mem)
    (hbase : ∀ v, base.bind c.decode = some v → P v) :
    Lasting c P (opened mem base : Guarded σ β τ) where
  mem := hmem
  file := hbase
  calls := fun _ _ _ hget => nomatch hget

end LockedStore
