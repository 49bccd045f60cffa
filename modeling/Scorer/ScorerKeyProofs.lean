import Scorer.RenamedStoreProofs

/-! # The scorer under its old name

    `ScorerKeyRemappingStore` passes every call on to the `FilesystemStore`, with one
    key renamed: the scorer that LDK persists goes to the file that earlier versions of
    the node wrote, which is also the file that a start reads it from.  A listing is
    passed on as it is, so it shows the scorer under the name of the file.

    * `scorerStore` is the wrapper of any store, `move` a call of either kind of caller,
      through the wrapper or direct, or a restart;
    * `store_refines`: over any run the wrapped store is the store of the same files
      without renaming, up to the names that a listing shows, and a start reads the
      scorer that was persisted last. -/

namespace ScorerKey

open LabelledRun RenamedStore WriteOrder

/-- The two namespaces of a call. -/
structure Namespaces where
  primaryNamespace   : String
  secondaryNamespace : String
  deriving DecidableEq, Repr

/-- What a call of `KVStore` names. -/
abbrev Name := RenamedStore.Name Namespaces String

/-- `SCORER_PERSISTENCE_FILE_NAME`. -/
def scorerPersistenceFileName : String := "scorer"

variable {β ε σ φ τ : Type} (scorer : Name)

section Source

/-- `remap_scorer_key`, where `scorer` holds the three constants of LDK. -/
def remapScorerKey (primaryNamespace secondaryNamespace key : String) : String :=
  if primaryNamespace = scorer.space.primaryNamespace ∧
      secondaryNamespace = scorer.space.secondaryNamespace ∧ key = scorer.key then
    scorerPersistenceFileName
  else key

/-- The name that the `FilesystemStore` is called with. -/
def remapped (n : Name) : Name :=
  { n with
    key := remapScorerKey scorer n.space.primaryNamespace n.space.secondaryNamespace n.key }

/-- `ScorerKeyRemappingStore`: `read`, `write` and `remove` rename the key, `list` is
    that of the `FilesystemStore`. -/
def scorerStore (inner : KVStore Namespaces String β ε σ) : KVStore Namespaces String β ε σ where
  act s n op s' := inner.act s (remapped scorer n) op s'
  restart s s' := inner.restart s s'
  read s n := inner.read s (remapped scorer n)
  list s space := inner.list s space

/-- `disk::read_scorer` of `{ldk_data_dir}/scorer`, where `openFile` is what the files of
    the data directory hold; `none` for a fresh scorer. -/
def readScorer (decode : β → Option τ) (openFile : String → Option β) : Option τ :=
  (openFile scorerPersistenceFileName).bind decode

end Source

/-! ## Runs of the node -/

/-- What the node does to its store. -/
inductive Move (β : Type) where
  | through (n : Name) (op : Op β)
  | direct (n : Name) (op : Op β)
  | restart

/-- A move, where some callers hold the one store and some the other. -/
def move (wrapper direct : KVStore Namespaces String β ε σ) (s : σ) : Move β → σ → Prop
  | .through n op, s' => wrapper.act s n op s'
  | .direct n op, s' => direct.act s n op s'
  | .restart, s' => direct.restart s s'

/-- The name of the file. -/
def target : Name := { scorer with key := scorerPersistenceFileName }

variable (valid : Name → Prop)

/-- A name that the store accepts and that the file of the scorer does not take. -/
def Free (n : Name) : Prop := valid n ∧ (n = target scorer → scorer = target scorer)

/-- Nobody names the file but by the scorer's key, and only callers of the wrapper name
    that; with the one name for both there is nothing to keep to. -/
def Apart : Move β → Prop
  | .through n _ => Free scorer valid n
  | .direct n _ => Free scorer valid n ∧ (n = scorer → scorer = target scorer)
  | .restart => True

/-- What the moves so far make known of the scorer's key. -/
def known (moves : List (Move β)) : Known β :=
  moves.foldl
    (fun k m => match m with
      | .through n op | .direct n op => if n = scorer then k.next op else k
      | .restart => k.reopened) ⟨[], none⟩

/-- The scorer that was persisted last, by a call that has succeeded, with none after it. -/
def persisted (moves : List (Move β)) : Option β := (known scorer moves).value

/-- The wrapped store, as it looks from outside, is the store `t` without renaming: the
    reads, what a call or a completion can do, and the listings, which show the name that
    the file has; the scorer's own key, which the wrapper never uses, is left out there. -/
structure Refines (inner : KVStore Namespaces String β ε σ) (files : FileSystem β ε φ) (s : σ)
    (t : Name → φ) : Prop where
  reads : ∀ n, Free scorer valid n →
    (scorerStore scorer inner).read s n = (plain files).read t n
  acts : ∀ n op, Free scorer valid n → ((∃ s', (scorerStore scorer inner).act s n op s') ↔
    ∃ t', (plain files).act t n op t')
  lists : ∀ m : Name, valid m → (m = scorer → scorer = target scorer) →
    (m.key ∈ (scorerStore scorer inner).list s m.space ↔
      ∃ n, Free scorer valid n ∧ remapped scorer n = m ∧ n.key ∈ (plain files).list t n.space)

variable {scorer valid}

theorem remapped_scorer : remapped scorer scorer = target scorer := by
  rw [remapped, remapScorerKey, if_pos ⟨rfl, rfl, rfl⟩, target]

theorem remapped_other {n : Name} (hne : n ≠ scorer) : remapped scorer n = n := by
  rw [remapped, remapScorerKey, if_neg]
  rintro ⟨hprimary, hsecondary, hkey⟩
  refine hne ?_
  obtain ⟨⟨primary, secondary⟩, key⟩ := n
  obtain ⟨⟨primary', secondary'⟩, key'⟩ := scorer
  simp_all

theorem remapped_injective : ∀ m n : Name, Free scorer valid m → Free scorer valid n →
    remapped scorer m = remapped scorer n → m = n := by
  rintro m n ⟨-, hm⟩ ⟨-, hn⟩ heq
  by_cases hms : m = scorer
  · by_cases hns : n = scorer
    · rw [hms, hns]
    · rw [hms, remapped_scorer, remapped_other hns] at heq
      exact absurd ((hn heq.symm).trans heq).symm hns
  · by_cases hns : n = scorer
    · rw [hns, remapped_scorer, remapped_other hms] at heq
      exact absurd ((hm heq).trans heq.symm).symm hms
    · rwa [remapped_other hms, remapped_other hns] at heq

/-- Every file but that of the unused key has a name that goes to it. -/
theorem exists_remapped (hscorer : valid scorer) {m : Name} (hvalid : valid m)
    (hm : m = scorer → scorer = target scorer) :
    ∃ n, Free scorer valid n ∧ remapped scorer n = m := by
  by_cases htarget : m = target scorer
  · exact ⟨scorer, ⟨hscorer, id⟩, remapped_scorer.trans htarget.symm⟩
  · have hne : m ≠ scorer := fun h => htarget (h.trans (hm h))
    exact ⟨m, ⟨hvalid, fun h => absurd h htarget⟩, remapped_other hne⟩

/-- A name that is accepted stays so. -/
theorem valid_remapped (htarget : valid (target scorer)) {n : Name} (hn : valid n) :
    valid (remapped scorer n) := by
  by_cases hs : n = scorer
  · rw [hs, remapped_scorer]
    exact htarget
  · rw [remapped_other hs]
    exact hn

/-- A direct call names what the wrapper would not have renamed. -/
theorem remapped_direct {n : Name} (hn : n = scorer → scorer = target scorer) :
    remapped scorer n = n := by
  by_cases hs : n = scorer
  · rw [hs, remapped_scorer, ← hn hs]
  · exact remapped_other hs

section Refinement

variable {inner : KVStore Namespaces String β ε σ} {files : FileSystem β ε φ}
  {file : σ → Name → φ} {s s' : σ} {t t' : Name → φ}

/-- **MOVE STEP**: a move of the node is a move with the plain store, and leaves the two
    alike. -/
theorem move_renamed (hinner : KeepsFiles valid inner files file) (hfiles : LawfulFiles files)
    (htarget : valid (target scorer)) {m : Move β} (hm : Apart scorer valid m)
    (hst : Renamed (Free scorer valid) (remapped scorer) file s t)
    (hmove : move (scorerStore scorer inner) inner s m s') :
    ∃ t', move (plain files) (plain files) t m t' ∧
      Renamed (Free scorer valid) (remapped scorer) file s' t' := by
  cases m with
  | through n op =>
      exact act_renamed hinner remapped_injective hst hm (valid_remapped htarget hm.1) hmove
  | direct n op =>
      have hact : inner.act s (remapped scorer n) op s' := by
        rw [remapped_direct hm.2]
        exact hmove
      exact act_renamed hinner remapped_injective hst hm.1 (valid_remapped htarget hm.1.1) hact
  | restart => exact restart_renamed hinner hfiles hst hmove

theorem known_snoc (moves : List (Move β)) (m : Move β) :
    known scorer (moves ++ [m]) =
      match m with
      | .through n op | .direct n op =>
          if n = scorer then (known scorer moves).next op else known scorer moves
      | .restart => (known scorer moves).reopened := by
  rw [known, List.foldl_append]
  cases m <;> rfl

/-- **SCORER STEP**: a move keeps true what is known of the scorer. -/
theorem known_move (hfiles : LawfulFiles files) {moves : List (Move β)} {m : Move β}
    (hknown : (known scorer moves).Of files (t scorer))
    (hmove : move (plain files) (plain files) t m t') :
    (known scorer (moves ++ [m])).Of files (t' scorer) := by
  have hact : ∀ n op, (plain files).act t n op t' →
      (if n = scorer then (known scorer moves).next op else known scorer moves).Of files
        (t' scorer) := by
    intro n op hact
    by_cases heq : n = scorer
    · rw [if_pos heq]
      exact hknown.next hfiles (heq ▸ hact.1)
    · rw [if_neg heq, hact.2 scorer (Ne.symm heq)]
      exact hknown
  rw [known_snoc]
  cases m with
  | through n op => exact hact n op hmove
  | direct n op => exact hact n op hmove
  | restart => exact hknown.reopened hfiles (hmove scorer)

/-- What renaming keeps, as it is seen through the wrapper. -/
theorem refines_of_renamed (hinner : KeepsFiles valid inner files file)
    (hscorer : valid scorer) (htarget : valid (target scorer))
    (hst : Renamed (Free scorer valid) (remapped scorer) file s t) :
    Refines scorer valid inner files s t where
  reads n hn := read_renamed hinner hst hn (valid_remapped htarget hn.1)
  acts n op hn := by
    have hvalid := valid_remapped htarget hn.1
    constructor
    · rintro ⟨s', hact⟩
      obtain ⟨t', ht', -⟩ := act_renamed hinner remapped_injective hst hn hvalid hact
      exact ⟨t', ht'⟩
    · rintro ⟨t', hact⟩
      exact act_named hinner hst hn hvalid hact
  lists m hvalid hm := by
    constructor
    · intro hlisted
      obtain ⟨n, hn, rfl⟩ := exists_remapped hscorer hvalid hm
      exact ⟨n, hn, rfl, (list_renamed hinner hst hn hvalid).mp hlisted⟩
    · rintro ⟨n, hn, rfl, hlisted⟩
      exact (list_renamed hinner hst hn hvalid).mpr hlisted

/-- **STORE REFINES**: over any run of a process and those after it, in which nobody else
    names the file of the scorer, the wrapped store does what a store of the same files
    without renaming does, move by move, and looks like it; and `read_scorer` reads what
    is under the scorer's key there, so the scorer that was persisted last. -/
theorem store_refines (hinner : KeepsFiles valid inner files file) (hfiles : LawfulFiles files)
    (hscorer : valid scorer) (htarget : valid (target scorer)) (hroot : scorer.space = ⟨"", ""⟩)
    {openFile : σ → String → Option β}
    (hdir : ∀ s name, openFile s name = (inner.read s ⟨⟨"", ""⟩, name⟩).toOption)
    (decode : β → Option τ) {before first last : σ} (hstart : inner.restart before first)
    {moves : List (Move β)} (hapart : ∀ m ∈ moves, Apart scorer valid m)
    (hrun : Trace (move (scorerStore scorer inner) inner) first moves last) :
    ∃ t, Trace (move (plain files) (plain files)) (fun n => file first (remapped scorer n))
        moves t ∧
      Refines scorer valid inner files last t ∧
      readScorer decode (openFile last) =
        ((plain files).read t scorer).toOption.bind decode ∧
      ∀ v, persisted scorer moves = some v → readScorer decode (openFile last) = decode v := by
  -- each move has its match, with the same answer, in the plain store
  have hmatched : ∀ s (t : Name → φ) m s', Apart scorer valid m →
      Renamed (Free scorer valid) (remapped scorer) file s t →
      move (scorerStore scorer inner) inner s m s' →
      ∃ t', move (plain files) (plain files) t m t' ∧
        Renamed (Free scorer valid) (remapped scorer) file s' t' :=
    fun _ _ _ _ hm hst hmove => move_renamed hinner hfiles htarget hm hst hmove
  obtain ⟨t, hplain, hst⟩ := hrun.simulated hmatched hapart
    (show Renamed (Free scorer valid) (remapped scorer) file first fun n =>
      file first (remapped scorer n) from fun _ _ => rfl)
  have hopened :
      files.reopen (file before (target scorer)) (file first (remapped scorer scorer)) := by
    rw [remapped_scorer]
    exact (hinner.restart_iff before (file first)).mp ⟨first, hstart, rfl⟩ (target scorer)
  -- what is known of the scorer's file holds of the matching run
  have hknown : (known scorer moves).Of files (t scorer) :=
    hplain.invariant (I := fun moves t => (known scorer moves).Of files (t scorer))
      (fun _ _ _ _ _ hknown hmove => known_move hfiles hknown hmove) hapart
      (Known.of_opened hopened)
  have hrefines := refines_of_renamed hinner hscorer htarget hst
  have hread : readScorer decode (openFile last) =
      ((plain files).read t scorer).toOption.bind decode := by
    have hname : (⟨⟨"", ""⟩, scorerPersistenceFileName⟩ : Name) = remapped scorer scorer := by
      rw [remapped_scorer, target, hroot]
    rw [readScorer, hdir, hname, ← hrefines.reads scorer ⟨hscorer, id⟩]
    rfl
  refine ⟨t, hplain, hrefines, hread, fun v hv => ?_⟩
  rw [hread, show (plain files).read t scorer = .ok v from hknown.holds v hv]
  rfl

end Refinement

/-! ## A scorer that is persisted twice -/

/-- A key of LDK that is not the old name. -/
def longKey : Name := ⟨⟨"", ""⟩, "probabilistic_scorer"⟩

/-- The files of a data directory, each with its calls. -/
abbrev DataDir := Name → OrderedFile (Option Nat)

/-- What a file of the data directory holds. -/
def openNat (s : DataDir) (name : String) : Option Nat :=
  ((plain orderedFiles).read s ⟨⟨"", ""⟩, name⟩).toOption

/-- One move of the node over such files. -/
def execute (s : DataDir) : Move Nat → Option DataDir
  | .through n op =>
      (orderedFiles.next (s (remapped longKey n)) op).map
        (Function.update s (remapped longKey n))
  | .direct n op => (orderedFiles.next (s n) op).map (Function.update s n)
  | .restart => some fun n => opened (content (s n))

theorem execute_move {s s' : DataDir} {m : Move Nat} (h : execute s m = some s') :
    move (scorerStore longKey (plain orderedFiles)) (plain orderedFiles) s m s' := by
  have hact : ∀ n op, (orderedFiles.next (s n) op).map (Function.update s n) = some s' →
      (plain orderedFiles).act s n op s' := by
    intro n op hnext
    obtain ⟨g, hg, rfl⟩ := Option.map_eq_some_iff.mp hnext
    refine ⟨?_, fun m hne => Function.update_of_ne hne g s⟩
    rw [Function.update_self]
    exact hg
  cases m with
  | through n op => exact hact (remapped longKey n) op h
  | direct n op => exact hact n op h
  | restart =>
      obtain rfl := Option.some.inj h
      exact fun n => rfl

/-- The older call is the later to complete, and the node is started anew. -/
def persistedTwice : List (Move Nat) :=
  [.through longKey (.write 1), .through longKey (.write 2),
    .direct ⟨⟨"", ""⟩, "manager"⟩ (.write 9), .through longKey (.settle 1 true),
    .through longKey (.settle 0 true), .restart]

/-- The names that are accepted: up to 120 characters, and no empty key. -/
def acceptedName (n : Name) : Bool :=
  !n.key.isEmpty && n.key.length ≤ 120

instance apartDecidable (scorer : Name) :
    ∀ m : Move Nat, Decidable (Apart scorer (acceptedName ·) m)
  | .through n _ => inferInstanceAs (Decidable (acceptedName n ∧
      (n = target scorer → scorer = target scorer)))
  | .direct n _ => inferInstanceAs (Decidable ((acceptedName n ∧
      (n = target scorer → scorer = target scorer)) ∧ (n = scorer → scorer = target scorer)))
  | .restart => inferInstanceAs (Decidable True)

/-- The scorer is written twice and read after a restart. -/
theorem store_refines_persistedTwice :
    ∃ s t : DataDir,
      Trace (move (scorerStore longKey (plain orderedFiles)) (plain orderedFiles))
        (fun _ => opened none) persistedTwice s ∧
      Refines longKey (acceptedName ·) (plain orderedFiles) orderedFiles s t ∧
      readScorer some (openNat s) = some 2 := by
  obtain ⟨s, hs⟩ := Option.isSome_iff_exists.mp
    (show (persistedTwice.foldlM execute fun _ => opened none).isSome by decide)
  have hrun := trace_of_foldlM (fun _ _ _ => execute_move) persistedTwice hs
  have hdir : ∀ (s : DataDir) name,
      openNat s name = ((plain orderedFiles).read s ⟨⟨"", ""⟩, name⟩).toOption :=
    fun _ _ => rfl
  have hempty : (plain orderedFiles).restart (fun _ : Name => opened none)
      (fun _ => (opened none : OrderedFile (Option Nat))) := fun _ => rfl
  obtain ⟨t, -, hrefines, -, hlast⟩ := store_refines
    (plain_keepsFiles (acceptedName ·) orderedFiles) orderedFiles_lawful (by decide) (by decide)
    rfl hdir some hempty (show ∀ m ∈ persistedTwice, Apart longKey (acceptedName ·) m by decide)
    hrun
  exact ⟨s, t, hrun, hrefines, hlast 2 rfl⟩

end ScorerKey
