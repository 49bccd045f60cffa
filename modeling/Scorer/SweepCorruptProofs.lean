import Scorer.SweepCrashProofs

/-! # A corrupt file among others

    The files of the processing directory are joined byte by byte before anything is
    decoded, and the decoder stops at the first place that is no descriptor.  So a
    corrupt file takes with it whatever is listed after it.

    * `HandedOver`: every file that decodes completely has its descriptors accepted,
      and its bytes stay on disk until then;
    * `corrupt_file_costs`: that is so when the bytes listed before each such file
      decode completely, and only then, coincidences apart;
    * `corrupt_file_takes_next`: it is not so in general. -/

namespace SweepCorrupt

open CrashProgram SweepFiles SweepMigration SweepStage SweepCrash SelfDelimited

variable {δ : Type} {codec : DescriptorCodec δ} {c : MigrationCalls} {s t u v : Disk δ}
  {d : δ} {ds es : List δ} {p : Place} {n : FileName} {bytes : Bytes}

/-- The bytes are part of some file. -/
def Held (s : Disk δ) (bytes : Bytes) : Prop :=
  ∃ p n content, fileAt s p n = some content ∧ bytes <:+: content

/-- Every descriptor of a file that the migration takes and that decodes completely has
    been accepted at the end, and at every point before that its bytes are on disk. -/
def HandedOver (codec : DescriptorCodec δ) (c : MigrationCalls) (u : Disk δ) : Prop :=
  ∀ p n bytes ds d, Taken p n → fileAt u p n = some bytes → Whole codec.read bytes ds →
    d ∈ ds → d ∈ (tryMigrate c codec u).final.tracked ∧
      ∀ t ∈ reached (tryMigrate c codec) u, d ∈ t.tracked ∨ Held t bytes

/-! ## The files that are joined -/

/-- The processing directory after the move. -/
def mergedDir (u : Disk δ) : Dir :=
  (u.dirs .processing).getD ∅ ∪
    ((u.dirs .pending).getD ∅).filter fun n _ => decide (n.length = 64)

/-- Its files in the order in which they are joined. -/
def joinedNames (c : MigrationCalls) (u : Disk δ) : List FileName :=
  listing (c.order .readProcessing) (mergedDir u)

/-- The bytes of the files of `names`. -/
def contents (u : Disk δ) (names : List FileName) : Bytes :=
  names.flatMap fun n => ((mergedDir u)[n]?).getD []

/-- The bytes that are joined before those of the file `n`. -/
def listedBefore (c : MigrationCalls) (u : Disk δ) (n : FileName) : Bytes :=
  contents u ((joinedNames c u).takeWhile fun k => k ≠ n)

/-- The bytes listed before a file that decodes completely, and is not empty, decode
    completely. -/
def CleanBefore (codec : DescriptorCodec δ) (c : MigrationCalls) (u : Disk δ) : Prop :=
  ∀ n bytes ds, (mergedDir u)[n]? = some bytes → Whole codec.read bytes ds → ds ≠ [] →
    ∃ es, Whole codec.read (listedBefore c u n) es

/-- A file of the merged directory, by where it was. -/
theorem mergedDir_get (u : Disk δ) (n : FileName) :
    (mergedDir u)[n]? =
      if n.length = 64 then (fileAt u .pending n).or (fileAt u .processing n)
      else fileAt u .processing n := by
  have hget (p : Place) : ((u.dirs p).getD ∅)[n]? = fileAt u p n := by
    rw [fileAt]
    cases u.dirs p <;> simp
  rw [mergedDir, Std.ExtTreeMap.getElem?_union, Std.ExtTreeMap.getElem?_filter', hget, hget]
  by_cases hn : n.length = 64
  · cases fileAt u .pending n <;> simp [hn]
  · simp [hn]

/-- A file that the migration takes from the two directories. -/
theorem mergedDir_taken (hapart : Apart u) (hp : p ≠ .spendable) (htaken : Taken p n)
    (hfile : fileAt u p n = some bytes) : (mergedDir u)[n]? = some bytes := by
  rw [mergedDir_get]
  cases p with
  | spendable => exact absurd rfl hp
  | pending => rw [if_pos (htaken rfl), hfile, Option.some_or]
  | processing =>
      have hfree : fileAt u .pending n = none :=
        (hapart n).resolve_right (ne_of_eq_of_ne hfile (Option.some_ne_none bytes))
      rw [hfree, Option.none_or, ite_self, hfile]

/-- The joining pass reads exactly these files. -/
theorem joinedBytes_moved (hc : NoFailures c) (hs : Moved u [] s) :
    joinedBytes c s = contents u (joinedNames c u) := by
  have hget (n : FileName) : fileAt s .processing n = (mergedDir u)[n]? := by
    rw [hs.processing n, mergedDir_get]
    simp
  rw [joinedBytes]
  cases hdir : s.dirs .processing with
  | none =>
      -- no directory: nothing was moved and nothing was there
      have hempty : mergedDir u = ∅ := by
        apply Std.ExtTreeMap.ext_getElem?
        intro n
        rw [← hget n, fileAt, hdir]
        simp
      have hnames : joinedNames c u = [] := by
        have hkeys : (∅ : Dir).keys = [] := by simp
        rw [joinedNames, hempty, listing, hkeys, ite_eq_right_iff]
        exact List.Perm.eq_nil
      rw [hnames]
      rfl
  | some m =>
      have hm : m = mergedDir u := by
        apply Std.ExtTreeMap.ext_getElem?
        intro n
        rw [← hget n, fileAt, hdir]
        rfl
      subst hm
      exact readProcessing_eq hc _

/-- The joined bytes around those of one file. -/
theorem contents_split (hn : (mergedDir u)[n]? = some bytes) :
    ∃ after, contents u (joinedNames c u) = listedBefore c u n ++ (bytes ++ after) := by
  have hmem : n ∈ joinedNames c u := mem_listing hn
  obtain ⟨before, after, hnames, hnew⟩ := List.eq_append_cons_of_mem hmem
  refine ⟨contents u after, ?_⟩
  have htake : (joinedNames c u).takeWhile (fun k => k ≠ n) = before := by
    rw [hnames, List.takeWhile_append_of_pos]
    · simp
    · intro k hk
      simp only [ne_eq, decide_not, Bool.not_eq_true', decide_eq_false_iff_not]
      rintro rfl
      exact hnew hk
  rw [listedBefore, htake, hnames, contents, List.flatMap_append, List.flatMap_cons, hn]
  rfl

/-! ## What has been gathered -/

/-- Gathering asks the sweeper for nothing. -/
theorem gathered_tracked (hv : Gathered c u v) : v.tracked = u.tracked := by
  rcases hv with ⟨hv, -⟩ | ⟨s, t, hs, ht, hv⟩
  · exact hv.tracked
  · exact (hv.tracked.trans ht.tracked).trans hs.tracked

/-- The files of `spendable_outputs`: those of the start, and the joined one. -/
theorem gathered_spendable (hc : NoFailures c) (hv : Gathered c u v) (n : FileName) :
    fileAt v .spendable n = fileAt u .spendable n ∨
      n = c.key ∧ fileAt v .spendable n = some (contents u (joinedNames c u)) := by
  rcases hv with ⟨hv, -⟩ | ⟨s, t, hs, ht, hv⟩
  · exact Or.inl (hv.spendable n)
  · have hsame : fileAt v .spendable n = fileAt t .spendable n :=
      hv.others .spendable n (by rintro ⟨⟩)
    rw [hsame, ht.files, joinedBytes_moved hc hs]
    by_cases hn : n = c.key
    · exact Or.inr ⟨hn, if_pos ⟨rfl, hn⟩⟩
    · exact Or.inl (by rw [if_neg (fun h => hn h.2), hs.spendable n])

/-- The files that were in the last directory stay, since the new name is fresh. -/
theorem gathered_kept (hfresh : FreshKey c u) (hv : Gathered c u v)
    (hfile : fileAt u .spendable n = some bytes) : fileAt v .spendable n = some bytes := by
  rcases hv with ⟨hv, -⟩ | ⟨s, t, hs, ht, hv⟩
  · exact (hv.spendable n).trans hfile
  · rw [hv.others .spendable n (by rintro ⟨⟩), ht.files, if_neg, hs.spendable n]
    · exact hfile
    · rintro ⟨-, rfl⟩
      cases hfresh.1.symm.trans hfile

/-- The new file has what the listed ones had, in their order. -/
theorem gathered_joined (hc : NoFailures c) (hv : Gathered c u v)
    (hne : contents u (joinedNames c u) ≠ []) :
    fileAt v .spendable c.key = some (contents u (joinedNames c u)) := by
  rcases hv with ⟨hv, hnil⟩ | ⟨s, t, hs, ht, hv⟩
  · exact absurd ((joinedBytes_moved hc hv).symm.trans hnil) hne
  · rw [hv.others .spendable _ (by rintro ⟨⟩), ht.files, if_pos ⟨rfl, rfl⟩,
      joinedBytes_moved hc hs]

/-- A migration that finds a file gathers, and has accepted what it gathered. -/
theorem migrated_stages (codec : DescriptorCodec δ) (hc : NoFailures c)
    (hfresh : FreshKey c u) (hnew : u.sentinel = false) (hfile : fileAt u p n = some bytes) :
    (∃ v, Gathered c u v ∧ Accepted codec c v (tryMigrate c codec u).final) ∧
      ∀ t ∈ (tryMigrate c codec u).visited, Stage codec c u t := by
  have hdirs : ∃ p, u.dirs p ≠ none := by
    refine ⟨p, fun hnone => ?_⟩
    rw [fileAt, hnone] at hfile
    cases hfile
  have hrun : Holds (fun s => s = u) (tryMigrate c codec) _ _ :=
    tryMigrate_stages hc hfresh hnew hdirs
  obtain ⟨⟨-, -, hdone⟩, hvisited⟩ := hrun u rfl
  exact ⟨hdone, hvisited⟩

theorem whole_ne_nil (h : Whole codec.read bytes ds) (hd : d ∈ ds) : bytes ≠ [] := by
  rintro rfl
  cases h with
  | stop => cases hd
  | next hread _ =>
      have hnil : codec.read [] = none := Consuming.nil codec.read_suffix
      cases hnil.symm.trans hread

/-! ## Clean files are handed over -/

/-- A file that is joined after clean bytes is read where it begins. -/
theorem scan_joined (hself : SelfDelimiting codec.read)
    (hn : (mergedDir u)[n]? = some bytes) (h : Whole codec.read bytes ds)
    (hbefore : Whole codec.read (listedBefore c u n) es) (hd : d ∈ ds) :
    d ∈ scan codec.read (contents u (joinedNames c u)) := by
  obtain ⟨after, hsplit⟩ := contents_split (c := c) hn
  -- what comes after the file does not change how it is read
  have hsteps : Steps codec.read (contents u (joinedNames c u)) (es ++ ds) after := by
    rw [hsplit]
    exact hbefore.append hself (steps_append hself h after)
  exact (prefix_scan codec.read_suffix hsteps).subset (List.mem_append_right es hd)

/-- What stands behind clean files only is read, and the sweeper gets it. -/
theorem accepted_handed (hself : SelfDelimiting codec.read) (hc : NoFailures c)
    (hfresh : FreshKey c u) (hapart : Apart u) (hclean : CleanBefore codec c u)
    (hv : Gathered c u v) (hs : Accepted codec c v s) (htaken : Taken p n)
    (hfile : fileAt u p n = some bytes) (h : Whole codec.read bytes ds) (hd : d ∈ ds) :
    d ∈ s.tracked := by
  rw [hs.tracked]
  refine List.mem_append_right _ ((mem_outputs hc).mpr ?_)
  by_cases hp : p = .spendable
  · subst hp
    refine ⟨n, bytes, gathered_kept hfresh hv hfile, ?_⟩
    rwa [scan_of_whole codec.read_suffix h]
  · have hn := mergedDir_taken hapart hp htaken hfile
    -- the joined bytes are read up to the file, and then through it
    obtain ⟨es, hbefore⟩ := hclean n bytes ds hn h (List.ne_nil_of_mem hd)
    obtain ⟨after, hsplit⟩ := contents_split (c := c) hn
    have hne : contents u (joinedNames c u) ≠ [] := by
      rw [hsplit]
      simp [whole_ne_nil h hd]
    exact ⟨c.key, _, gathered_joined hc hv hne, scan_joined hself hn h hbefore hd⟩

/-- Until the outputs are accepted, the bytes of a file stay on disk. -/
theorem gathering_held (hc : NoFailures c) (hfresh : FreshKey c u) (hapart : Apart u)
    (htaken : Taken p n) (hfile : fileAt u p n = some bytes) :
    (∀ rest, Moved u rest s → Held s bytes) ∧ (Gathering c u s → Held s bytes) := by
  have hmoving (rest : List FileName) (s : Disk δ) (hs : Moved u rest s) :
      ∃ q, (p = .spendable → q = .spendable) ∧ fileAt s q n = some bytes := by
    cases p with
    | spendable => exact ⟨.spendable, id, (hs.spendable n).trans hfile⟩
    | pending =>
        by_cases hn : n ∈ rest
        · refine ⟨.pending, (by rintro ⟨⟩), ?_⟩
          rw [hs.pending n, if_neg (fun h => h.2 hn)]
          exact hfile
        · refine ⟨.processing, (by rintro ⟨⟩), ?_⟩
          rw [hs.processing n, if_pos ⟨htaken rfl, hn⟩, hfile]
          rfl
    | processing =>
        -- no pending file of the name takes its place
        have hfree : fileAt u .pending n = none :=
          (hapart n).resolve_right (ne_of_eq_of_ne hfile (Option.some_ne_none bytes))
        refine ⟨.processing, (by rintro ⟨⟩), ?_⟩
        rw [hs.processing n, hfree, Option.none_or, ite_self]
        exact hfile
  refine ⟨fun rest hs => ?_, ?_⟩
  · obtain ⟨q, -, hq⟩ := hmoving rest s hs
    exact ⟨q, n, bytes, hq, List.infix_rfl⟩
  · rintro (hs | ⟨v, i, hv, hs⟩ | ⟨v, t, hv, ht, hs⟩)
    · obtain ⟨q, -, hq⟩ := hmoving [] s hs
      exact ⟨q, n, bytes, hq, List.infix_rfl⟩
    · -- the temporary file is none of those that were there
      obtain ⟨q, -, hq⟩ := hmoving [] v hv
      refine ⟨q, n, bytes, ?_, List.infix_rfl⟩
      rw [hs.files, if_neg]
      · exact hq
      · rintro ⟨rfl, rfl⟩
        cases (((hv.spendable _).trans hfresh.2).symm.trans hq)
    · by_cases hp : p = .spendable
      · subst hp
        exact ⟨.spendable, n, bytes, gathered_kept hfresh (Or.inr ⟨v, t, hv, ht, hs⟩) hfile,
          List.infix_rfl⟩
      · -- the file was joined, so its bytes are a part of the new one
        have hn := mergedDir_taken hapart hp htaken hfile
        obtain ⟨after, hsplit⟩ := contents_split (c := c) hn
        refine ⟨.spendable, c.key, contents u (joinedNames c u), ?_, ?_⟩
        · rw [hs.others .spendable _ (by rintro ⟨⟩), ht.files, if_pos ⟨rfl, rfl⟩,
            joinedBytes_moved hc hv]
        · rw [hsplit, ← List.append_assoc]
          exact ⟨_, after, rfl⟩

/-- **CLEAN FILES**: a file that decodes completely, after bytes that do, is handed
    over. -/
theorem handedOver_of_clean (hself : SelfDelimiting codec.read) (hc : NoFailures c)
    (hfresh : FreshKey c u) (hapart : Apart u) (hnew : u.sentinel = false)
    (hclean : CleanBefore codec c u) : HandedOver codec c u := by
  intro p n bytes ds d htaken hfile h hd
  obtain ⟨⟨v, hv, hfinal⟩, hvisited⟩ := migrated_stages codec hc hfresh hnew hfile
  have haccept (w s : Disk δ) (hw : Gathered c u w) (hs : Accepted codec c w s) :
      d ∈ s.tracked :=
    accepted_handed hself hc hfresh hapart hclean hw hs htaken hfile h hd
  refine ⟨haccept v _ hv hfinal, fun t ht => ?_⟩
  rcases List.mem_append.mp ht with hbefore | hlast
  · rcases List.mem_cons.mp hbefore with rfl | hmid
    · exact Or.inr ⟨p, n, bytes, hfile, List.infix_rfl⟩
    · obtain ⟨hmoving, hgathering⟩ :=
        gathering_held (s := t) hc hfresh hapart htaken hfile
      cases hvisited t hmid with
      | moving rest hs => exact Or.inr (hmoving rest hs)
      | gathering hs => exact Or.inr (hgathering hs)
      | accepted w hw hs => exact Or.inl (haccept w t hw hs)
  · rw [List.mem_singleton.mp hlast]
    exact Or.inl (haccept v _ hv hfinal)

/-! ## Files after corrupt ones are not -/

/-- No coincidence hides what is lost: a file that does not decode completely is refused
    at the same place whatever follows it, and a descriptor is read from one file only
    and has not been accepted before. -/
structure Unambiguous (codec : DescriptorCodec δ) (u : Disk δ) : Prop where
  refused : ∀ (n : FileName) (bytes : Bytes), (mergedDir u)[n]? = some bytes → ∃ rest,
    Steps codec.read bytes (scan codec.read bytes) rest ∧
      (rest = [] ∨ ∀ more, codec.read (rest ++ more) = none)
  joined : ∀ (n n' : FileName) (bytes bytes' : Bytes) (d : δ), (mergedDir u)[n]? = some bytes →
    (mergedDir u)[n']? = some bytes' → d ∈ scan codec.read bytes →
    d ∈ scan codec.read bytes' → n = n'
  spendable : ∀ (n n' : FileName) (bytes bytes' : Bytes) (d : δ),
    (mergedDir u)[n]? = some bytes → fileAt u .spendable n' = some bytes' →
    d ∈ scan codec.read bytes → d ∉ scan codec.read bytes'
  tracked : ∀ (n : FileName) (bytes : Bytes), (mergedDir u)[n]? = some bytes →
    ∀ d ∈ scan codec.read bytes, d ∉ u.tracked

/-- What follows a file that is refused is not read, what follows a clean one is. -/
theorem scan_append {rest : Bytes} (hself : SelfDelimiting codec.read)
    (h : Steps codec.read bytes ds rest) (more : Bytes)
    (hend : rest = [] ∨ codec.read (rest ++ more) = none) :
    scan codec.read (bytes ++ more) = ds ∨
      rest = [] ∧ scan codec.read (bytes ++ more) = ds ++ scan codec.read more := by
  have hmore := steps_append hself h more
  rcases hend with rfl | hnone
  · obtain ⟨rest', hscan, hend'⟩ := scan_steps codec.read_suffix more
    exact Or.inr ⟨rfl, scan_of_steps codec.read_suffix (hmore.trans hscan) hend'⟩
  · exact Or.inl (scan_of_steps codec.read_suffix hmore hnone)

/-- A descriptor that is read from the joined bytes of `names` has only files before it
    that decode completely. -/
theorem clean_of_mem_scan (hself : SelfDelimiting codec.read) (hu : Unambiguous codec u)
    (hn : (mergedDir u)[n]? = some bytes) (hd : d ∈ scan codec.read bytes)
    (names : List FileName) (hmem : n ∈ names)
    (hread : d ∈ scan codec.read (contents u names)) :
    ∃ es, Whole codec.read (contents u (names.takeWhile fun k => k ≠ n)) es := by
  induction names with
  | nil => cases hmem
  | cons k rest ih =>
      by_cases hk : k = n
      · rw [List.takeWhile_cons_of_neg (by simp [hk])]
        exact ⟨[], .stop []⟩
      have hrest : n ∈ rest := (List.mem_cons.mp hmem).resolve_left (Ne.symm hk)
      rw [List.takeWhile_cons_of_pos (by simp [hk]), contents, List.flatMap_cons]
      rw [contents, List.flatMap_cons] at hread
      cases hfile : (mergedDir u)[k]? with
      | none =>
          rw [hfile] at hread
          exact ih hrest hread
      | some content =>
          rw [hfile] at hread
          obtain ⟨left, hsteps, hend⟩ := hu.refused k content hfile
          -- `d` is read further on, so the reading goes past this file: it is clean
          have hother : d ∉ scan codec.read content := fun hd' =>
            hk (hu.joined k n content bytes d hfile hn hd' hd)
          rcases scan_append hself hsteps (contents u rest)
            (hend.imp_right fun h => h _) with hstop | ⟨rfl, hgo⟩
          · exact absurd (hstop ▸ hread) hother
          · obtain ⟨es, hes⟩ := ih hrest
              ((List.mem_append.mp (hgo ▸ hread)).resolve_left hother)
            exact ⟨_, Whole.append hself hsteps hes⟩

/-- A joined file is one that the migration takes. -/
theorem taken_of_mergedDir (hn : (mergedDir u)[n]? = some bytes) :
    ∃ p, Taken p n ∧ fileAt u p n = some bytes := by
  rw [mergedDir_get] at hn
  split at hn
  · rename_i hlen
    rcases Option.or_eq_some_iff.mp hn with hpend | ⟨-, hproc⟩
    · exact ⟨.pending, fun _ => hlen, hpend⟩
    · exact ⟨.processing, taken_of_ne (by rintro ⟨⟩) n, hproc⟩
  · exact ⟨.processing, taken_of_ne (by rintro ⟨⟩) n, hn⟩

/-- **ONLY CLEAN FILES**: without coincidences, whatever is handed over has only clean
    files before it. -/
theorem clean_of_handedOver (hself : SelfDelimiting codec.read) (hc : NoFailures c)
    (hfresh : FreshKey c u) (hnew : u.sentinel = false) (hu : Unambiguous codec u)
    (hhanded : HandedOver codec c u) : CleanBefore codec c u := by
  intro n bytes ds hn h hne
  obtain ⟨p, htaken, hfile⟩ := taken_of_mergedDir hn
  obtain ⟨d, hd⟩ := List.exists_mem_of_ne_nil ds hne
  have hscan : d ∈ scan codec.read bytes := by rwa [scan_of_whole codec.read_suffix h]
  obtain ⟨⟨v, hv, hfinal⟩, -⟩ := migrated_stages codec hc hfresh hnew hfile
  have hmem := (hhanded p n bytes ds d htaken hfile h hd).1
  rw [hfinal.tracked, gathered_tracked hv] at hmem
  -- by `Unambiguous` the descriptor comes from the joined file
  have hout := (List.mem_append.mp hmem).resolve_left (hu.tracked n bytes hn d hscan)
  obtain ⟨k, content, hk, hread⟩ := (mem_outputs hc).mp hout
  have hjoined : d ∈ scan codec.read (contents u (joinedNames c u)) := by
    rcases gathered_spendable hc hv k with hold | ⟨-, hnew⟩
    · exact absurd hread (hu.spendable n k bytes content d hn (hold.symm.trans hk) hscan)
    · obtain rfl := Option.some.inj (hnew.symm.trans hk)
      exact hread
  exact clean_of_mem_scan hself hu hn hscan _ (mem_listing hn) hjoined

/-- **A CORRUPT FILE**: every file that decodes completely has its descriptors handed to
    the sweeper before its bytes are removed, when the bytes joined before it decode
    completely; and, coincidences apart, only then. -/
theorem corrupt_file_costs (codec : DescriptorCodec δ) (hself : SelfDelimiting codec.read)
    (c : MigrationCalls) (u : Disk δ) (hc : NoFailures c) (hfresh : FreshKey c u)
    (hapart : Apart u) (hnew : u.sentinel = false) :
    (CleanBefore codec c u → HandedOver codec c u) ∧
      (Unambiguous codec u → (HandedOver codec c u ↔ CleanBefore codec c u)) :=
  ⟨handedOver_of_clean hself hc hfresh hapart hnew, fun hu =>
    ⟨clean_of_handedOver hself hc hfresh hnew hu,
      handedOver_of_clean hself hc hfresh hapart hnew⟩⟩

/-! ## Two processing files -/

/-- Descriptors of one byte behind a mark. -/
def markedCodec : DescriptorCodec UInt8 where
  encode d := [1, d]
  read bytes := match bytes with
    | 1 :: d :: rest => some (d, rest)
    | _ => none
  read_encode := fun _ _ => rfl
  read_suffix := by
    intro bytes d rest h
    split at h
    · rename_i d' rest'
      obtain ⟨rfl, rfl⟩ := Prod.mk.inj (Option.some.inj h)
      exact ⟨[1, d'], List.cons_ne_nil _ _, rfl⟩
    · cases h

/-- The descriptors of this codec end themselves. -/
theorem markedCodec_selfDelimiting : SelfDelimiting markedCodec.read := by
  intro bytes d rest more h
  simp only [markedCodec] at h ⊢
  split at h
  · obtain ⟨rfl, rfl⟩ := Prod.mk.inj (Option.some.inj h)
    rfl
  · cases h

/-- Two processing files, listed in this order. -/
def twoProcessing (first second : Bytes) : Disk UInt8 :=
  putFile .processing [0x62] second (putFile .processing [0x61] first
    ⟨false, fun p => if p = .processing then some ∅ else none, []⟩)

theorem fileAt_twoProcessing (first second : Bytes) (p : Place) (n : FileName) :
    fileAt (twoProcessing first second) p n =
      if p = .processing ∧ n = [0x62] then some second
      else if p = .processing ∧ n = [0x61] then some first else none := by
  rw [twoProcessing, fileAt_putFile _ _ _ _ _ _ rfl, fileAt_putFile _ _ _ _ _ _ rfl]
  congr 2
  cases p <;> simp [fileAt]

theorem twoProcessing_fresh (first second : Bytes) :
    FreshKey allSucceed (twoProcessing first second) := by
  constructor <;> rw [fileAt_twoProcessing, if_neg (by simp), if_neg (by simp)]

theorem twoProcessing_apart (first second : Bytes) : Apart (twoProcessing first second) := by
  intro n
  refine Or.inl ?_
  rw [fileAt_twoProcessing, if_neg (by simp), if_neg (by simp)]

theorem of_mergedDir_twoProcessing {first second : Bytes}
    (h : (mergedDir (twoProcessing first second))[n]? = some bytes) :
    n = [0x61] ∧ bytes = first ∨ n = [0x62] ∧ bytes = second := by
  obtain ⟨p, -, hfile⟩ := taken_of_mergedDir h
  rw [fileAt_twoProcessing] at hfile
  split at hfile
  · rename_i hn
    exact Or.inr ⟨hn.2, (Option.some.inj hfile).symm⟩
  · split at hfile
    · rename_i hn
      exact Or.inl ⟨hn.2, (Option.some.inj hfile).symm⟩
    · cases hfile

/-- A whole file before a corrupt one, and nothing else on disk. -/
theorem twoProcessing_unambiguous : Unambiguous markedCodec (twoProcessing [1, 7] [0]) := by
  have hwhole : Whole markedCodec.read [1, 7] [7] := .next rfl (.stop [])
  have hscan : scan markedCodec.read [1, 7] = [7] := scan_of_whole markedCodec.read_suffix hwhole
  have hscan' : scan markedCodec.read [0] = [] :=
    scan_of_steps markedCodec.read_suffix (.stop [0]) rfl
  refine ⟨?_, ?_, ?_, fun _ _ _ d _ => List.not_mem_nil⟩
  · intro n bytes hn
    rcases of_mergedDir_twoProcessing hn with ⟨-, rfl⟩ | ⟨-, rfl⟩
    · exact ⟨[], hscan ▸ hwhole, Or.inl rfl⟩
    · exact ⟨[0], hscan' ▸ .stop [0], Or.inr fun _ => rfl⟩
  · intro n n' bytes bytes' d hn hn' hd hd'
    rcases of_mergedDir_twoProcessing hn with ⟨rfl, rfl⟩ | ⟨-, rfl⟩
    · rcases of_mergedDir_twoProcessing hn' with ⟨rfl, rfl⟩ | ⟨-, rfl⟩
      · rfl
      · rw [hscan'] at hd'
        cases hd'
    · rw [hscan'] at hd
      cases hd
  · intro n n' bytes bytes' d _ hn' _
    rw [fileAt_twoProcessing, if_neg (by simp), if_neg (by simp)] at hn'
    cases hn'

/-- A corrupt file harms nothing that is read before it. -/
theorem corrupt_file_after_whole :
    HandedOver markedCodec allSucceed (twoProcessing [1, 7] [0]) := by
  refine ((corrupt_file_costs markedCodec markedCodec_selfDelimiting allSucceed
    (twoProcessing [1, 7] [0]) (allSucceed_noFailures allSucceed.key)
    (twoProcessing_fresh _ _) (twoProcessing_apart _ _) rfl).2
    twoProcessing_unambiguous).mpr ?_
  intro n bytes ds hn h hne
  rcases of_mergedDir_twoProcessing hn with ⟨rfl, -⟩ | ⟨-, rfl⟩
  · have hfirst : listedBefore allSucceed (twoProcessing [1, 7] [0]) [0x61] = [] := by
      decide +kernel
    exact ⟨[], hfirst ▸ .stop []⟩
  · cases h with
    | next hread _ => cases hread

/-- **THE NEXT FILE IS LOST**: a processing file that holds one descriptor is removed
    without it, because the file listed before it is corrupt. -/
theorem corrupt_file_takes_next :
    ¬ ∀ (c : MigrationCalls) (u : Disk UInt8), NoFailures c → FreshKey c u → Apart u →
      u.sentinel = false → HandedOver markedCodec c u := by
  intro hall
  have hhanded := hall allSucceed (twoProcessing [0] [1, 7])
    (allSucceed_noFailures allSucceed.key) (twoProcessing_fresh _ _)
    (twoProcessing_apart _ _) rfl
  have hfile : fileAt (twoProcessing [0] [1, 7]) .processing [0x62] = some [1, 7] := by
    rw [fileAt_twoProcessing, if_pos ⟨rfl, rfl⟩]
  have hmem := (hhanded .processing [0x62] [1, 7] [7] 7 (taken_of_ne (by rintro ⟨⟩) _) hfile
    (.next rfl (.stop [])) List.mem_cons_self).1
  have hgone : (tryMigrate allSucceed markedCodec (twoProcessing [0] [1, 7])).final.tracked = [] := by
    decide +kernel
  rw [hgone] at hmem
  cases hmem

end SweepCorrupt
