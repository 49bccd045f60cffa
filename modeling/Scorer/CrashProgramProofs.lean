import Scorer.LabelledRunProofs

/-! # Programs that a crash may cut short

    A program changes a durable state in single steps.  `Prog` keeps the states it
    passes through, so that "in every state reached" and "a crash at any point"
    are statements about one list.

    * `Holds P p Q C`: from a state with `P`, the program returns into `Q`, and
      every state it passes through has `C`;
    * `holds_bind`, `holds_forEach`: the rules for sequences and loops;
    * `attempt`: one execution, whole or cut after some step, as a labelled step. -/

namespace CrashProgram

open LabelledRun

/-- The result of an execution: the value, the last state, and every state after
    a step, in order. -/
structure Outcome (σ α : Type) where
  value   : α
  final   : σ
  visited : List σ

/-- A program over a disk: from a state to its outcome. -/
def Prog (σ α : Type) := σ → Outcome σ α

variable {σ α γ ε ι κ : Type}

/-- Return without a step. -/
def Prog.ret (a : α) : Prog σ α := fun s => ⟨a, s, []⟩

/-- One program after another; the states passed through add up. -/
def Prog.andThen (p : Prog σ α) (f : α → Prog σ γ) : Prog σ γ := fun s =>
  let o := p s
  let r := f o.value o.final
  ⟨r.value, r.final, o.visited ++ r.visited⟩

instance : Monad (Prog σ) where
  pure := Prog.ret
  bind := Prog.andThen

/-- Look at the state. -/
def look (f : σ → α) : Prog σ α := fun s => ⟨f s, s, []⟩

/-- One step that no crash divides. -/
def act (f : σ → σ) : Prog σ Unit := fun s => ⟨(), f s, [f s]⟩

/-- A step that a crash may leave in any of the states of `f`, the last of them
    its result. -/
def passing (f : σ → List σ) : Prog σ Unit := fun s => ⟨(), (f s).getLast?.getD s, f s⟩

/-- A loop that stops at the first error. -/
def forEach (body : ι → Prog σ (Except ε Unit)) : List ι → Prog σ (Except ε Unit)
  | [] => pure (.ok ())
  | x :: rest => do
      match ← body x with
      | .ok () => forEach body rest
      | .error e => pure (.error e)

@[simp] theorem pure_run (a : α) (s : σ) : (pure a : Prog σ α) s = ⟨a, s, []⟩ := rfl

/-- Looking passes through no state either. -/
@[simp] theorem look_run (f : σ → α) (s : σ) : look f s = ⟨f s, s, []⟩ := rfl

/-- An operation that is done at once passes through the state it leaves. -/
@[simp] theorem act_run (f : σ → σ) (s : σ) : act f s = ⟨(), f s, [f s]⟩ := rfl

/-- An operation in parts passes through the states it is given. -/
@[simp] theorem passing_run (f : σ → List σ) (s : σ) :
    passing f s = ⟨(), (f s).getLast?.getD s, f s⟩ := rfl

/-- Two programs in a row, with what each passes through. -/
@[simp] theorem bind_run (p : Prog σ α) (f : α → Prog σ γ) (s : σ) :
    (p >>= f) s = ⟨(f (p s).value (p s).final).value, (f (p s).value (p s).final).final,
      (p s).visited ++ (f (p s).value (p s).final).visited⟩ := rfl

/-! ## Rules -/

/-- From `P`, the program returns into `Q` and passes only through `C`. -/
def Holds (P : σ → Prop) (p : Prog σ α) (Q : α → σ → Prop) (C : σ → Prop) : Prop :=
  ∀ s, P s → Q (p s).value (p s).final ∧ ∀ t ∈ (p s).visited, C t

variable {P P' : σ → Prop} {Q Q' : α → σ → Prop} {C C' : σ → Prop} {p : Prog σ α}

/-- The rule of a value. -/
theorem holds_pure {a : α} (h : ∀ s, P s → Q a s) : Holds P (pure a) Q C :=
  fun s hs => ⟨h s hs, fun _ ht => nomatch ht⟩

/-- The rule of looking at the state. -/
theorem holds_look {f : σ → α} (h : ∀ s, P s → Q (f s) s) : Holds P (look f) Q C :=
  fun s hs => ⟨h s hs, fun _ ht => nomatch ht⟩

/-- The rule of an operation: its state satisfies the postcondition and the crash
    condition. -/
theorem holds_act {f : σ → σ} {Q : Unit → σ → Prop} (h : ∀ s, P s → Q () (f s) ∧ C (f s)) :
    Holds P (act f) Q C := by
  intro s hs
  refine ⟨(h s hs).1, fun t ht => ?_⟩
  obtain rfl := List.mem_singleton.mp ht
  exact (h s hs).2

/-- The rule of an operation in parts: every part may be the last one before a crash. -/
theorem holds_passing {f : σ → List σ} {Q : Unit → σ → Prop}
    (h : ∀ s, P s → Q () ((f s).getLast?.getD s) ∧ ∀ t ∈ f s, C t) :
    Holds P (passing f) Q C := h

/-- The rule of sequence, where the postcondition of the first is the precondition of the
    second. -/
theorem holds_bind {R : γ → σ → Prop} {f : α → Prog σ γ} (hp : Holds P p Q C)
    (hf : ∀ a, Holds (Q a) (f a) R C) : Holds P (p >>= f) R C := by
  intro s hs
  obtain ⟨hQ, hC⟩ := hp s hs
  obtain ⟨hR, hC'⟩ := hf _ _ hQ
  refine ⟨hR, fun t ht => ?_⟩
  rcases List.mem_append.mp ht with h | h
  · exact hC t h
  · exact hC' t h

/-- The rule of consequence. -/
theorem holds_weaken (hp : Holds P' p Q' C') (hP : ∀ s, P s → P' s)
    (hQ : ∀ a s, Q' a s → Q a s) (hC : ∀ s, C' s → C s) : Holds P p Q C := by
  intro s hs
  obtain ⟨h1, h2⟩ := hp s (hP s hs)
  exact ⟨hQ _ _ h1, fun t ht => hC t (h2 t ht)⟩

/-- The rule of a branch. -/
theorem holds_ite {b : Prop} [Decidable b] {q : Prog σ α} (hp : b → Holds P p Q C)
    (hq : ¬ b → Holds P q Q C) : Holds P (if b then p else q) Q C := by
  split
  · rename_i hb
    exact hp hb
  · rename_i hb
    exact hq hb

/-- It is enough to look at one state before the program at a time. -/
theorem holds_fixed (h : ∀ s, P s → Holds (fun t => t = s) p Q C) : Holds P p Q C :=
  fun s hs => h s hs s rfl

/-- The postcondition of a program that may return an error. -/
def onExcept (Q : α → σ → Prop) (E : ε → σ → Prop) : Except ε α → σ → Prop
  | .ok a => Q a
  | .error e => E e

/-- The rule of a loop: `I` is about the elements that are left. -/
theorem holds_forEach {body : ι → Prog σ (Except ε Unit)} {I : List ι → σ → Prop}
    {E : ε → σ → Prop}
    (hbody : ∀ x rest, Holds (I (x :: rest)) (body x) (onExcept (fun _ => I rest) E) C)
    (xs : List ι) : Holds (I xs) (forEach body xs) (onExcept (fun _ => I []) E) C := by
  induction xs with
  | nil => exact holds_pure fun s hs => hs
  | cons x rest ih =>
      refine holds_bind (hbody x rest) fun r => ?_
      cases r with
      | ok u => exact ih
      | error e => exact holds_pure fun s hs => hs

/-! ## Every state of an execution -/

/-- The states of an execution, from its first to its last. -/
def reached (p : Prog σ α) (s : σ) : List σ := s :: (p s).visited ++ [(p s).final]

/-- What a triple says of a run that may be cut anywhere: the crash condition holds in
    whatever state it is left in. -/
theorem reached_holds {s t : σ} (hp : Holds (fun u => u = s) p (fun _ => C) C) (hs : C s)
    (ht : t ∈ reached p s) : C t := by
  obtain ⟨hfinal, hvisited⟩ := hp s rfl
  rcases List.mem_append.mp ht with h | h
  · rcases List.mem_cons.mp h with rfl | hmem
    · exact hs
    · exact hvisited t hmem
  · obtain rfl := List.mem_singleton.mp h
    exact hfinal

/-! ## Attempts -/

/-- One execution under the outcomes `k`: to its end, or cut by a crash after its
    `n`-th step. -/
def attempt (p : κ → Prog σ α) (s : σ) : κ × Option Nat → Option σ
  | (k, none) => some (p k s).final
  | (k, some n) => (p k s).visited[n]?

/-- What an execution keeps at its end and on its way, an attempt keeps. -/
theorem attempt_holds {q : κ → Prog σ α} {k : κ} {cut : Option Nat} {s t : σ}
    (hq : Holds P (q k) (fun _ => C) C) (hs : P s) (h : attempt q s (k, cut) = some t) :
    C t := by
  obtain ⟨hfinal, hvisited⟩ := hq s hs
  cases cut with
  | none =>
      obtain rfl := Option.some.inj h
      exact hfinal
  | some n => exact hvisited t (List.mem_of_getElem? h)

end CrashProgram
