import Mathlib.Data.List.Basic
import Mathlib.Order.Basic
import Mathlib.Tactic.Basic

/-! # A file rewritten by ordered asynchronous writes

    A key of a store whose writes are asynchronous: a write call fixes the place
    of its contents in the order of the calls, and the write completes later, in
    any order.  A completion takes effect only when no later call has taken
    effect before it (it is then superseded), and a failed write leaves the
    previous contents.

    * `issue` and `settle` are the two operations, `content` is what a reader of
      the file finds at any point, so also what a crash leaves;
    * `settle_landed_mono`: the call that the file holds only moves forward;
    * `Ordered`: a write that reports success is in the file, or a later one is;
    * `content_of_landed`: the file holds the contents of one of the calls. -/

namespace WriteOrder

variable {β : Type}

/-- What is known of a write call. -/
inductive WriteStatus where
  | outstanding
  | succeeded
  | failed
  deriving DecidableEq, Repr

/-- The contents at the start of the process, the write calls in call order, and
    the newest call that has taken effect. -/
structure OrderedFile (β : Type) where
  base   : Option β
  writes : List (β × WriteStatus)
  landed : Option Nat
  deriving DecidableEq, Repr

/-- The file as a process that has not written yet finds it. -/
def opened (base : Option β) : OrderedFile β := ⟨base, [], none⟩

/-- What the file holds. -/
def content (f : OrderedFile β) : Option β :=
  match f.landed with
  | none => f.base
  | some k => f.writes[k]?.map Prod.fst

/-- A write call: its contents take the next place in the order. -/
def issue (f : OrderedFile β) (v : β) : OrderedFile β :=
  { f with writes := f.writes ++ [(v, .outstanding)] }

/-- The status of the `i`-th call. -/
def status (f : OrderedFile β) (i : Nat) : Option WriteStatus :=
  f.writes[i]?.map Prod.snd

/-- The call that the file holds once the `i`-th one succeeds. -/
def landing (f : OrderedFile β) (i : Nat) : Nat :=
  match f.landed with
  | none => i
  | some k => max k i

/-- The `i`-th call completes. -/
def settle (f : OrderedFile β) (i : Nat) (ok : Bool) : Option (OrderedFile β) :=
  match f.writes[i]? with
  | some (v, .outstanding) =>
      if ok then
        some { f with writes := f.writes.set i (v, .succeeded), landed := some (landing f i) }
      else some { f with writes := f.writes.set i (v, .failed) }
  | _ => none

/-- The call held is one that was made, and every call that reported success is
    in the file or superseded by a later one. -/
structure Ordered (f : OrderedFile β) : Prop where
  bounded : ∀ k, f.landed = some k → k < f.writes.length
  covered : ∀ i, status f i = some .succeeded → ∃ k, f.landed = some k ∧ i ≤ k

/-- `f` is an earlier state of `g`: the same calls and more, and the call held has
    not moved back. -/
structure Before (f g : OrderedFile β) : Prop where
  base : g.base = f.base
  calls : ∃ more, g.writes.map Prod.fst = f.writes.map Prod.fst ++ more
  landed : ∀ k, f.landed = some k → ∃ l, g.landed = some l ∧ k ≤ l

@[simp] theorem issue_base (f : OrderedFile β) (v : β) :
    (issue f v).base = f.base := rfl

@[simp] theorem issue_landed (f : OrderedFile β) (v : β) :
    (issue f v).landed = f.landed := rfl

@[simp] theorem issue_writes (f : OrderedFile β) (v : β) :
    (issue f v).writes = f.writes ++ [(v, .outstanding)] := rfl

@[simp] theorem opened_base (b : Option β) : (opened b).base = b := rfl

@[simp] theorem opened_writes (b : Option β) : (opened b).writes = [] := rfl
/-- What a completion does: it marks the call, and on success it moves the call
    held forward to at least this one. -/
theorem settle_cases {f g : OrderedFile β} {i : Nat} {ok : Bool}
    (h : settle f i ok = some g) :
    ∃ v, f.writes[i]? = some (v, .outstanding) ∧
      ((ok = true ∧ g = { f with writes := f.writes.set i (v, .succeeded),
                                 landed := some (landing f i) }) ∨
        (ok = false ∧ g = { f with writes := f.writes.set i (v, .failed) })) := by
  rw [settle] at h
  split at h
  · rename_i v hv
    refine ⟨v, hv, ?_⟩
    cases ok with
    | true => exact Or.inl ⟨rfl, by simpa using h.symm⟩
    | false => exact Or.inr ⟨rfl, by simpa using h.symm⟩
  · exact nomatch h

/-- Marking a call does not change the contents it was made with. -/
private theorem map_fst_set {L : List (β × WriteStatus)} {i : Nat} {v : β}
    {st : WriteStatus} (h : L[i]? = some (v, st)) (st' : WriteStatus) :
    (L.set i (v, st')).map Prod.fst = L.map Prod.fst := by
  apply List.ext_getElem?
  intro j
  rw [List.getElem?_map, List.getElem?_map, List.getElem?_set]
  by_cases hij : i = j
  · subst hij
    obtain ⟨hlt, hget⟩ := List.getElem?_eq_some_iff.mp h
    simp [hlt, hget]
  · simp [hij]

/-- When a write settles no value changes. -/
theorem settle_calls {f g : OrderedFile β} {i : Nat} {ok : Bool}
    (h : settle f i ok = some g) :
    g.writes.map Prod.fst = f.writes.map Prod.fst := by
  obtain ⟨v, hv, ⟨-, rfl⟩ | ⟨-, rfl⟩⟩ := settle_cases h
  · exact map_fst_set hv _
  · exact map_fst_set hv _

theorem settle_base {f g : OrderedFile β} {i : Nat} {ok : Bool}
    (h : settle f i ok = some g) : g.base = f.base := by
  obtain ⟨v, -, ⟨-, rfl⟩ | ⟨-, rfl⟩⟩ := settle_cases h <;> rfl

private theorem le_landing (f : OrderedFile β) (i : Nat) : i ≤ landing f i := by
  rw [landing]
  split
  · exact Nat.le_refl _
  · exact Nat.le_max_right _ _

private theorem landed_le_landing {f : OrderedFile β} {k : Nat} (h : f.landed = some k)
    (i : Nat) : k ≤ landing f i := by
  rw [landing, h]
  exact Nat.le_max_left _ _

/-- **CALL ORDER**: the call that the file holds never moves back. -/
theorem settle_landed_mono {f g : OrderedFile β} {i : Nat} {ok : Bool}
    (h : settle f i ok = some g) {k : Nat} (hk : f.landed = some k) :
    ∃ l, g.landed = some l ∧ k ≤ l := by
  obtain ⟨v, -, ⟨-, rfl⟩ | ⟨-, rfl⟩⟩ := settle_cases h
  · exact ⟨landing f i, rfl, landed_le_landing hk i⟩
  · exact ⟨k, hk, Nat.le_refl _⟩

/-- What settles comes after what was. -/
theorem settle_before {f g : OrderedFile β} {i : Nat} {ok : Bool}
    (h : settle f i ok = some g) : Before f g where
  base := settle_base h
  calls := ⟨[], by rw [settle_calls h, List.append_nil]⟩
  landed := fun _ hk => settle_landed_mono h hk

theorem issue_before (f : OrderedFile β) (v : β) : Before f (issue f v) where
  base := rfl
  calls := ⟨[v], by simp⟩
  landed := fun k hk => ⟨k, hk, Nat.le_refl _⟩

theorem Before.refl (f : OrderedFile β) : Before f f where
  base := rfl
  calls := ⟨[], by simp⟩
  landed := fun k hk => ⟨k, hk, Nat.le_refl _⟩

theorem Before.trans {f g h : OrderedFile β} (hfg : Before f g) (hgh : Before g h) :
    Before f h where
  base := hgh.base.trans hfg.base
  calls := by
    obtain ⟨m, hm⟩ := hfg.calls
    obtain ⟨n, hn⟩ := hgh.calls
    exact ⟨m ++ n, by rw [hn, hm, List.append_assoc]⟩
  landed := by
    intro k hk
    obtain ⟨l, hl, hkl⟩ := hfg.landed k hk
    obtain ⟨m, hm, hlm⟩ := hgh.landed l hl
    exact ⟨m, hm, Nat.le_trans hkl hlm⟩

/-- A file without calls is in order. -/
theorem opened_ordered (b : Option β) : Ordered (opened b) where
  bounded := fun _ hk => nomatch hk
  covered := fun i hi => by simp [status] at hi

theorem issue_ordered {f : OrderedFile β} (hf : Ordered f) (v : β) :
    Ordered (issue f v) where
  bounded := by
    intro k hk
    have hlt := hf.bounded k hk
    simp only [issue_writes, List.length_append, List.length_singleton]
    omega
  covered := by
    intro i hi
    apply hf.covered
    rw [status, issue_writes] at hi
    by_cases hlt : i < f.writes.length
    · rwa [List.getElem?_append_left hlt] at hi
    · rw [List.getElem?_append_right (by omega)] at hi
      -- the new call is outstanding, so it is not the one that succeeded
      cases hsub : i - f.writes.length with
      | zero => simp [hsub] at hi
      | succ n => simp [hsub] at hi

theorem settle_ordered {f g : OrderedFile β} {i : Nat} {ok : Bool} (hf : Ordered f)
    (h : settle f i ok = some g) : Ordered g := by
  obtain ⟨v, hv, ⟨-, rfl⟩ | ⟨-, rfl⟩⟩ := settle_cases h
  · have hlt : i < f.writes.length := (List.getElem?_eq_some_iff.mp hv).1
    constructor
    · intro k hk
      obtain rfl : landing f i = k := Option.some.inj hk
      simp only [List.length_set]
      rw [landing]
      split
      · exact hlt
      · rename_i l hl
        exact Nat.max_lt.mpr ⟨hf.bounded l hl, hlt⟩
    · intro j hj
      -- the write that lands covers itself and those that landed before
      refine ⟨landing f i, rfl, ?_⟩
      -- the settled write is a new one only at its own index
      by_cases hij : i = j
      · subst hij
        exact le_landing f i
      · rw [status, List.getElem?_set_ne hij] at hj
        obtain ⟨k, hk, hjk⟩ := hf.covered j hj
        exact Nat.le_trans hjk (landed_le_landing hk i)
  · constructor
    · intro k hk
      simpa only [List.length_set] using hf.bounded k hk
    · intro j hj
      have hlt : i < f.writes.length := (List.getElem?_eq_some_iff.mp hv).1
      by_cases hij : i = j
      · subst hij
        simp [status, hlt] at hj
      · rw [status, List.getElem?_set_ne hij] at hj
        exact hf.covered j hj

/-- The file holds the contents of the call that has landed. -/
theorem content_of_landed {f : OrderedFile β} {k : Nat} (hk : f.landed = some k) :
    content f = (f.writes.map Prod.fst)[k]? := by
  rw [content, hk, List.getElem?_map]

/-- A call leaves the contents as they are. -/
theorem content_issue {f : OrderedFile β} (hf : Ordered f) (v : β) :
    content (issue f v) = content f := by
  unfold content
  cases hk : f.landed with
  | none => rw [issue_landed, hk, issue_base]
  | some k =>
      rw [issue_landed, hk, issue_writes]
      simp only [List.getElem?_append_left (hf.bounded k hk)]

/-- A failed completion leaves the contents as they are. -/
theorem settle_failed_content {f g : OrderedFile β} {i : Nat}
    (h : settle f i false = some g) : content g = content f := by
  have hcalls := settle_calls h
  obtain ⟨v, -, ⟨hok, -⟩ | ⟨-, rfl⟩⟩ := settle_cases h
  · cases hok
  · unfold content
    cases f.landed with
    | none => rfl
    | some k =>
        simp only [← List.getElem?_map]
        rw [hcalls]

/-- Any completion leaves them as they are, or puts a call there that is no older. -/
theorem settle_content {f g : OrderedFile β} {i : Nat} {ok : Bool}
    (h : settle f i ok = some g) :
    content g = content f ∨ ∃ k, g.landed = some k ∧ ∀ l, f.landed = some l → l ≤ k := by
  cases ok with
  | false => exact Or.inl (settle_failed_content h)
  | true =>
      obtain ⟨v, -, ⟨-, rfl⟩ | ⟨hok, -⟩⟩ := settle_cases h
      · exact Or.inr ⟨landing f i, rfl, fun l hl => landed_le_landing hl i⟩
      · cases hok

end WriteOrder
