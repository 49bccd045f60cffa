import Mathlib.Data.Set.Basic
import Mathlib.Logic.Function.Basic
import Scorer.LabelledRunProofs
import Scorer.WriteOrderProofs

/-! # Key-value stores that differ by names

    A key-value store with asynchronous writes is a parameter here: what its calls may
    leave, what a new process may find, what it reads and lists.  It is known by what it
    promises: each key has a file of its own, and what a call does to that file does not
    depend on the name of the key.

    * `KVStore`, `KeepsFiles`, `LawfulFiles`: a store and its promises;
    * `plain`: the store that is nothing but its files;
    * `Renamed`: a store whose files are those of `plain` under other names;
    * `act_renamed`, `act_named`, `restart_renamed`: the one can do what the other can;
    * `known_content`: the newest call for a key is what its file holds, once that call
      has succeeded, and also after restarts. -/

namespace RenamedStore

open WriteOrder

variable {ν κ β ε σ φ : Type}

/-! ## Stores -/

/-- A key in its namespace. -/
structure Name (ν κ : Type) where
  space : ν
  key   : κ
  deriving DecidableEq, Repr

/-- What happens to a key: a call is made for it, or the `i`-th of its calls in this
    process completes. -/
inductive Op (β : Type) where
  | write (buf : β)
  | remove (lazy : Bool)
  | settle (i : Nat) (ok : Bool)

/-- A store: the states that a call or a completion may leave, those that a new process
    may find, the answer of a read, and the keys of a namespace, whose order is open. -/
structure KVStore (ν κ β ε σ : Type) where
  act     : σ → Name ν κ → Op β → σ → Prop
  restart : σ → σ → Prop
  read    : σ → Name ν κ → Except ε β
  list    : σ → ν → Set κ

/-- What may become of a single file, and what it shows. -/
structure FileSystem (β ε φ : Type) where
  op      : φ → Op β → φ → Prop
  reopen  : φ → φ → Prop
  content : φ → Except ε β
  present : φ → Prop

/-- A store with a file for each key: a call acts on the file of its key and on no
    other, and for the names that the store accepts nothing depends on the name. -/
structure KeepsFiles (valid : Name ν κ → Prop) (store : KVStore ν κ β ε σ)
    (files : FileSystem β ε φ) (file : σ → Name ν κ → φ) : Prop where
  act_iff : ∀ s n op g, valid n → ((∃ s', store.act s n op s' ∧ file s' = g) ↔
    files.op (file s n) op (g n) ∧ ∀ m, m ≠ n → g m = file s m)
  restart_iff : ∀ s g, (∃ s', store.restart s s' ∧ file s' = g) ↔
    ∀ n, files.reopen (file s n) (g n)
  read_eq : ∀ s n, valid n → store.read s n = files.content (file s n)
  mem_list : ∀ s n, valid n → (n.key ∈ store.list s n.space ↔ files.present (file s n))

/-- The calls for a key in this process, in order, with what became of them; a removal
    puts `none` there. -/
abbrev Calls (β : Type) := List (Option β × WriteStatus)

/-- The calls after an operation. -/
def record (calls : Calls β) : Op β → Calls β
  | .write buf => calls ++ [(some buf, .outstanding)]
  | .remove _ => calls ++ [(none, .outstanding)]
  | .settle i ok => calls.modify i fun call => (call.1, if ok then .succeeded else .failed)

/-- A file as these calls of a process may leave it. -/
inductive After (files : FileSystem β ε φ) : Calls β → φ → Prop
  | opened {f g : φ} : files.reopen f g → After files [] g
  | op {calls : Calls β} {f g : φ} {op : Op β} :
      After files calls f → files.op f op g → After files (record calls op) g

/-- The newest call has succeeded, or there is none. -/
def Quiet (calls : Calls β) : Prop := ∀ call, calls.getLast? = some call → call.2 = .succeeded

/-- The promises of `KVStore` for a single key: a write that has succeeded, with no call
    after it, is what the file holds; a file without a call in doubt keeps what it holds
    when the process ends; and a new process can always be started. -/
structure LawfulFiles (files : FileSystem β ε φ) : Prop where
  newest : ∀ calls f v, After files calls f → calls.getLast? = some (some v, .succeeded) →
    files.content f = .ok v
  durable : ∀ calls f g, After files calls f → Quiet calls → files.reopen f g →
    files.content g = files.content f
  restarts : ∀ f, ∃ g, files.reopen f g

/-- The store that is nothing but its files. -/
def plain (files : FileSystem β ε φ) : KVStore ν κ β ε (Name ν κ → φ) where
  act t n op t' := files.op (t n) op (t' n) ∧ ∀ m, m ≠ n → t' m = t m
  restart t t' := ∀ n, files.reopen (t n) (t' n)
  read t n := files.content (t n)
  list t space := { key | files.present (t ⟨space, key⟩) }

/-- A store without renaming keeps its files under the names themselves. -/
theorem plain_keepsFiles (valid : Name ν κ → Prop) (files : FileSystem β ε φ) :
    KeepsFiles valid (plain files) files id where
  act_iff t n op g _ := by
    constructor
    · rintro ⟨t', hact, rfl⟩
      exact hact
    · exact fun hact => ⟨g, hact, rfl⟩
  restart_iff t g := by
    constructor
    · rintro ⟨t', hrestart, rfl⟩
      exact hrestart
    · exact fun hrestart => ⟨g, hrestart, rfl⟩
  read_eq _ _ _ := rfl
  mem_list _ _ _ := Iff.rfl

/-! ## Renaming -/

/-- On the names in `D`, the store holds what the files do under the names that `ρ` gives. -/
def Renamed (D : Name ν κ → Prop) (ρ : Name ν κ → Name ν κ) (file : σ → Name ν κ → φ) (s : σ)
    (t : Name ν κ → φ) : Prop :=
  ∀ n, D n → file s (ρ n) = t n

section Renaming

variable [DecidableEq ν] [DecidableEq κ] {valid : Name ν κ → Prop}
  {store : KVStore ν κ β ε σ}
  {files : FileSystem β ε φ} {file : σ → Name ν κ → φ} {D : Name ν κ → Prop}
  {ρ : Name ν κ → Name ν κ} {s s' : σ} {t t' : Name ν κ → φ} {n : Name ν κ} {op : Op β}

/-- **FORWARD**: what the store does under the new name, the files do under the old one. -/
theorem act_renamed (hstore : KeepsFiles valid store files file)
    (hinj : ∀ m n, D m → D n → ρ m = ρ n → m = n) (hst : Renamed D ρ file s t) (hn : D n)
    (hvalid : valid (ρ n)) (hact : store.act s (ρ n) op s') :
    ∃ t', (plain files).act t n op t' ∧ Renamed D ρ file s' t' := by
  obtain ⟨hop, hframe⟩ := (hstore.act_iff s (ρ n) op (file s') hvalid).mp ⟨s', hact, rfl⟩
  refine ⟨Function.update t n (file s' (ρ n)), ⟨?_, fun m hne => Function.update_of_ne hne _ _⟩,
    fun m hm => ?_⟩
  · rw [Function.update_self, ← hst n hn]
    exact hop
  · by_cases heq : m = n
    · rw [heq, Function.update_self]
    · -- another name has another file, which the call leaves
      have hne : ρ m ≠ ρ n := fun h => heq (hinj m n hm hn h)
      rw [Function.update_of_ne heq, hframe _ hne]
      exact hst m hm

/-- **BACKWARD**: what the files can do under the old name, the store can do under the
    new one. -/
theorem act_named (hstore : KeepsFiles valid store files file) (hst : Renamed D ρ file s t)
    (hn : D n) (hvalid : valid (ρ n)) (hact : (plain files).act t n op t') :
    ∃ s', store.act s (ρ n) op s' := by
  have hop : files.op (file s (ρ n)) op (Function.update (file s) (ρ n) (t' n) (ρ n)) := by
    rw [Function.update_self, hst n hn]
    exact hact.1
  obtain ⟨s', hs', -⟩ := (hstore.act_iff s (ρ n) op _ hvalid).mpr
    ⟨hop, fun m hne => Function.update_of_ne hne _ _⟩
  exact ⟨s', hs'⟩

omit [DecidableEq ν] [DecidableEq κ] in

/-- A restart of the renamed store is one of the plain one. -/
theorem restart_renamed (hstore : KeepsFiles valid store files file)
    (hfiles : LawfulFiles files) (hst : Renamed D ρ file s t) (hrestart : store.restart s s') :
    ∃ t', (plain files).restart t t' ∧ Renamed D ρ file s' t' := by
  classical
  have hreopen := (hstore.restart_iff s (file s')).mp ⟨s', hrestart, rfl⟩
  obtain ⟨other, hother⟩ := Classical.skolem.mp hfiles.restarts
  -- names outside `D` are not looked at, and reopen in any way
  refine ⟨fun n => if D n then file s' (ρ n) else other (t n), fun n => ?_, fun n hn => ?_⟩
  · by_cases hn : D n
    · simp only [if_pos hn]
      rw [← hst n hn]
      exact hreopen (ρ n)
    · simp only [if_neg hn]
      exact hother (t n)
  · exact (if_pos hn).symm

omit [DecidableEq ν] [DecidableEq κ] in

/-- A read under a name finds what the plain store has there. -/
theorem read_renamed (hstore : KeepsFiles valid store files file) (hst : Renamed D ρ file s t)
    (hn : D n) (hvalid : valid (ρ n)) : store.read s (ρ n) = (plain files).read t n := by
  rw [hstore.read_eq s _ hvalid, hst n hn]
  rfl

omit [DecidableEq ν] [DecidableEq κ] in

/-- A listing shows the keys under their new names. -/
theorem list_renamed (hstore : KeepsFiles valid store files file) (hst : Renamed D ρ file s t)
    (hn : D n) (hvalid : valid (ρ n)) :
    (ρ n).key ∈ store.list s (ρ n).space ↔ n.key ∈ (plain files).list t n.space := by
  rw [hstore.mem_list s _ hvalid, hst n hn]
  exact Iff.rfl

end Renaming

/-! ## The newest call for a key -/

/-- The calls for a key in this process, and the value that its file holds for certain. -/
structure Known (β : Type) where
  calls : Calls β
  value : Option β

/-- The value of the newest call, if that has succeeded. -/
def settled (calls : Calls β) : Option β :=
  match calls.getLast? with
  | some (v, .succeeded) => v
  | _ => none

/-- What is known of a key after an operation. -/
def Known.next (k : Known β) (op : Op β) : Known β :=
  let calls := record k.calls op
  ⟨calls, settled calls⟩

/-- What is known of a key when a process begins. -/
def Known.reopened (k : Known β) : Known β := ⟨[], k.value⟩

/-- The file is as the calls may leave it, and holds the value that is known; one is
    known only where no call is in doubt. -/
structure Known.Of (files : FileSystem β ε φ) (k : Known β) (f : φ) : Prop where
  after : After files k.calls f
  holds : ∀ v, k.value = some v → files.content f = .ok v
  quiet : ∀ v, k.value = some v → Quiet k.calls

variable {files : FileSystem β ε φ} {k : Known β} {f g : φ}

/-- What is settled is the last call, if it succeeded. -/
theorem settled_eq {calls : Calls β} {v : β} :
    settled calls = some v ↔ calls.getLast? = some (some v, .succeeded) := by
  rw [settled]
  rcases calls.getLast? with _ | ⟨w, _ | _ | _⟩ <;> simp

/-- An operation on the key keeps what is known of it true. -/
theorem Known.Of.next (hfiles : LawfulFiles files) (h : k.Of files f) {op : Op β}
    (hop : files.op f op g) : (k.next op).Of files g where
  after := h.after.op hop
  holds v hv := hfiles.newest _ g v (h.after.op hop) (settled_eq.mp hv)
  quiet v hv call hcall := by
    obtain rfl := Option.some.inj ((settled_eq.mp hv).symm.trans hcall)
    rfl

/-- **KNOWN CONTENT**: what is known of a file stays true when the process ends. -/
theorem Known.Of.reopened (hfiles : LawfulFiles files) (h : k.Of files f)
    (hreopen : files.reopen f g) : k.reopened.Of files g where
  after := .opened hreopen
  holds v hv := by
    rw [hfiles.durable _ f g h.after (h.quiet v hv) hreopen]
    exact h.holds v hv
  quiet _ _ _ hcall := by cases hcall

theorem Known.of_opened (hreopen : files.reopen f g) : Known.Of files ⟨[], none⟩ g where
  after := .opened hreopen
  holds _ hv := by cases hv
  quiet _ hv := by cases hv

/-! ## Files with ordered writes -/

/-- A file whose calls complete in any order, as the newest of them that has succeeded
    leaves it; a removal leaves nothing. -/
def orderedFiles : FileSystem β Unit (OrderedFile (Option β)) where
  op f op g := next f op = some g
  reopen f g := g = opened (content f)
  content f := match (content f).join with
    | some v => .ok v
    | none => .error ()
  present f := (content f).join.isSome
where
  next (f : OrderedFile (Option β)) : Op β → Option (OrderedFile (Option β))
    | .write buf => some (issue f (some buf))
    | .remove _ => some (issue f none)
    | .settle i ok => settle f i ok

/-- Setting the status of a call leaves its value. -/
theorem set_eq_modify {calls : Calls β} {i : Nat} {v : Option β} {before : WriteStatus}
    (h : calls[i]? = some (v, before)) (after : WriteStatus) :
    calls.set i (v, after) = calls.modify i fun call => (call.1, after) := by
  apply List.ext_getElem?
  intro j
  rw [List.getElem?_set, List.getElem?_modify]
  by_cases hij : i = j
  · subst hij
    rw [if_pos rfl, if_pos (List.getElem?_eq_some_iff.mp h).1, h]
    simp only [if_true, Option.map_eq_map, Option.map_some]
  · simp only [if_neg hij, Option.map_eq_map, Option.map_id']

/-- A file keeps the order of its calls, and they are those that were made. -/
theorem orderedFiles_after {calls : Calls β} {f : OrderedFile (Option β)}
    (h : After orderedFiles calls f) : Ordered f ∧ f.writes = calls := by
  induction h with
  | opened hreopen =>
      obtain rfl : _ = opened _ := hreopen
      exact ⟨opened_ordered _, rfl⟩
  | @op calls f g op _ hop ih =>
      obtain ⟨hordered, rfl⟩ := ih
      cases op with
      | write buf =>
          obtain rfl := Option.some.inj hop
          exact ⟨issue_ordered hordered _, rfl⟩
      | remove lazy =>
          obtain rfl := Option.some.inj hop
          exact ⟨issue_ordered hordered _, rfl⟩
      | settle i ok =>
          have hsettle : settle f i ok = some g := hop
          refine ⟨settle_ordered hordered hsettle, ?_⟩
          obtain ⟨v, hv, ⟨rfl, rfl⟩ | ⟨rfl, rfl⟩⟩ := settle_cases hsettle
          · exact set_eq_modify hv .succeeded
          · exact set_eq_modify hv .failed

/-- Once the newest call has succeeded, the file holds what it put there. -/
theorem content_of_newest {f : OrderedFile (Option β)} (hf : Ordered f) {v : Option β}
    (hlast : f.writes.getLast? = some (v, .succeeded)) : content f = some v := by
  obtain ⟨before, hwrites⟩ := List.getLast?_eq_some_iff.mp hlast
  have hget : f.writes[before.length]? = some (v, .succeeded) := by
    rw [hwrites, List.getElem?_append_right (Nat.le_refl _), Nat.sub_self]
    rfl
  obtain ⟨k, hk, hle⟩ := hf.covered before.length (by rw [status, hget]; rfl)
  have hlt := hf.bounded k hk
  rw [hwrites, List.length_append, List.length_singleton] at hlt
  -- no later call exists, so this one landed last
  obtain rfl : k = before.length := by omega
  rw [content_of_landed hk, List.getElem?_map, hget]
  rfl

/-- Files with ordered writes obey the law. -/
theorem orderedFiles_lawful : LawfulFiles (orderedFiles : FileSystem β Unit _) where
  newest calls f v hafter hlast := by
    obtain ⟨hordered, rfl⟩ := orderedFiles_after hafter
    show (match (content f).join with
      | some v => Except.ok v
      | none => .error ()) = .ok v
    rw [content_of_newest hordered hlast]
    rfl
  durable _ f g _ _ hreopen := by
    obtain rfl : g = opened (content f) := hreopen
    rfl
  restarts f := ⟨opened (content f), rfl⟩

end RenamedStore
