import Scorer.AscendingStoreProofs
import Scorer.PaymentRefineProofs

/-! # Recorded payments across restarts

    No change of a payment store removes a record, so within a process the two
    files only gain keys.  A start-up that cannot read a file takes the empty store
    in its place and goes on to write; the file then loses what the start-up has
    overlooked.

    * `Watched` is the node with a note, for each file, whether the start-up of
      the running process has overlooked records in it;
    * `recorded_kept`: a file loses no record as long as no write of it succeeds
      after such a start-up, whatever happens to the other file;
    * `unreadable_files_forgotten`: otherwise it is. -/

namespace RecordsKept

open LabelledRun WriteOrder LockedStore AscendingStore PaymentStore PaymentSend
open PaymentWrite PaymentNode PaymentRefine

variable {β V : Type}

/-- The file holds a record of `k`. -/
def Recorded (c : Codec (Std.ExtTreeMap Bytes32 V) β) (file : Option β) (k : Bytes32) :
    Prop :=
  ∃ m, file.bind c.decode = some m ∧ m[k]?.isSome

/-- A start-up that cannot read a file with a record in it. -/
def overlooks (c : Codec (Std.ExtTreeMap Bytes32 V) β) (readable : Bool)
    (file : Option β) : Bool :=
  !readable && (file.bind c.decode).any fun m => !m.isEmpty

/-- The node, and for each file whether its process has overlooked records. -/
structure Watched (β : Type) where
  node : Node β
  inboundOverlooked : Bool
  outboundOverlooked : Bool

variable (E : NodeEnv β)

/-- A step of the node; a start-up notes what it overlooks. -/
def watchedStep (w : Watched β) (a : NodeAction) : Option (Watched β) :=
  (PaymentNode.step E w.node a).map fun n =>
    match a with
    | .boot inboundReadable outboundReadable =>
        ⟨n, overlooks E.cIn inboundReadable (content w.node.inbound.file),
          overlooks E.cOut outboundReadable (content w.node.outbound.file)⟩
    | _ => { w with node := n }

/-- A write of the inbound file succeeds only when the process has overlooked nothing
    in it; the writes of the other file are free. -/
def InboundWritesRead (w : Watched β) : NodeAction → Prop
  | .settleInbound _ true => w.inboundOverlooked = false
  | _ => True

/-- The same for the outbound file. -/
def OutboundWritesRead (w : Watched β) : NodeAction → Prop
  | .settleOutbound _ true => w.outboundOverlooked = false
  | _ => True

instance inboundWritesReadDecidable (w : Watched β) :
    (a : NodeAction) → Decidable (InboundWritesRead w a)
  | .settleInbound _ true => inferInstanceAs (Decidable (w.inboundOverlooked = false))
  | .settleInbound _ false | .settleOutbound _ _ | .send _ | .getInvoice _ _
  | .resume _ | .accept _ | .reject _ | .markRejected _ | .emit _ | .handle _ | .forget _
  | .crash | .boot _ _ | .started => inferInstanceAs (Decidable True)

instance outboundWritesReadDecidable (w : Watched β) :
    (a : NodeAction) → Decidable (OutboundWritesRead w a)
  | .settleOutbound _ true => inferInstanceAs (Decidable (w.outboundOverlooked = false))
  | .settleInbound _ _ | .settleOutbound _ false | .send _ | .getInvoice _ _
  | .resume _ | .accept _ | .reject _ | .markRejected _ | .emit _ | .handle _ | .forget _
  | .crash | .boot _ _ | .started => inferInstanceAs (Decidable True)

/-- A node that is off: nothing is overlooked yet. -/
def watchedOff (inboundFile outboundFile : Option β) (manager : ChannelManager) :
    Watched β :=
  ⟨offNode inboundFile outboundFile manager, false, false⟩

variable {E} {w w' : Watched β} {s t : Node β} {a : NodeAction}

/-- A watched step is a step of the node; only a start changes what is watched. -/
theorem watchedStep_move (h : watchedStep E w a = some w') :
    Move E w.node a w'.node ∧
      ((∃ rIn rOut, a = .boot rIn rOut ∧
        w'.inboundOverlooked = overlooks E.cIn rIn (content w.node.inbound.file) ∧
        w'.outboundOverlooked = overlooks E.cOut rOut (content w.node.outbound.file)) ∨
      ((∀ rIn rOut, a ≠ .boot rIn rOut) ∧
        w'.inboundOverlooked = w.inboundOverlooked ∧
        w'.outboundOverlooked = w.outboundOverlooked)) := by
  obtain ⟨n, hn, rfl⟩ := Option.map_eq_some_iff.mp h
  cases a with
  | boot rIn rOut => exact ⟨step_move hn, Or.inl ⟨rIn, rOut, rfl, rfl, rfl⟩⟩
  | _ => exact ⟨step_move hn, Or.inr ⟨by rintro _ _ ⟨⟩, rfl, rfl⟩⟩

/-- The note changes nothing: every run of the node is a run with the note. -/
theorem reach_watched (h : Reach (step E) anyStep s t) (bIn bOut : Bool) :
    ∃ w : Watched β, w.node = t ∧ Reach (watchedStep E) anyStep ⟨s, bIn, bOut⟩ w := by
  induction h with
  | refl => exact ⟨⟨s, bIn, bOut⟩, rfl, reach_refl _⟩
  | tail _ hst ih =>
      obtain ⟨a, -, ha⟩ := hst
      obtain ⟨w, rfl, hw⟩ := ih
      obtain ⟨w', hw'⟩ : ∃ w', (watchedStep E w a) = some w' := by
        rw [watchedStep, ha]
        exact ⟨_, rfl⟩
      refine ⟨w', ?_, hw.trans (reach_step trivial hw')⟩
      obtain ⟨n, hn, rfl⟩ := Option.map_eq_some_iff.mp hw'
      obtain rfl := Option.some.inj (hn.symm.trans ha)
      cases a <;> rfl

/-! ## Keeping keys is an order -/

instance keysKeptRefl : Std.Refl (KeysKept (V := V)) := ⟨KeysKept.refl⟩

instance keysKeptTrans : IsTrans (Std.ExtTreeMap Bytes32 V) KeysKept :=
  ⟨fun _ _ _ => KeysKept.trans⟩

/-- Being recorded can be computed. -/
theorem recorded_iff {c : Codec (Std.ExtTreeMap Bytes32 V) β} {file : Option β}
    {k : Bytes32} :
    Recorded c file k ↔ (file.bind c.decode).any (fun m => m[k]?.isSome) = true := by
  rw [Option.any_eq_true]
  rfl

instance recordedDecidable (c : Codec (Std.ExtTreeMap Bytes32 V) β) (file : Option β)
    (k : Bytes32) : Decidable (Recorded c file k) :=
  decidable_of_iff _ recorded_iff.symm

/-- What is recorded stays so when the file rises. -/
theorem recorded_of_rises {c : Codec (Std.ExtTreeMap Bytes32 V) β}
    {g h : Guarded (Std.ExtTreeMap Bytes32 V) β TaskId} (hr : Rises c KeysKept g h)
    {k : Bytes32} (hk : Recorded c (content g.file) k) : Recorded c (content h.file) k := by
  obtain ⟨m, hm, hmk⟩ := hk
  obtain ⟨m', hm', hkept⟩ := hr m hm
  exact ⟨m', hm', hkept k hmk⟩

/-- What a start-up that overlooks nothing reads has every key of the file. -/
theorem read_keysKept {c : Codec (Std.ExtTreeMap Bytes32 V) β} {readable : Bool}
    {file : Option β} (hseen : overlooks c readable file = false)
    {m : Std.ExtTreeMap Bytes32 V} (hm : file.bind c.decode = some m) :
    KeysKept m (readPaymentInfo c readable file) := by
  cases readable with
  | true =>
      rw [readPaymentInfo, if_pos rfl, hm]
      exact KeysKept.refl m
  | false =>
      have hempty : m.isEmpty = true := by
        simpa [overlooks, hm] using hseen
      intro k hk
      rw [Std.ExtTreeMap.isEmpty_iff.mp hempty] at hk
      simp at hk

/-! ## What each move does to the two files -/

/-- The invariant of a run: both stores rise, and those that have been read are
    above their files. -/
structure Kept (E : NodeEnv β) (w : Watched β) : Prop where
  refined : Refined E w.node
  inbound : Ascending KeysKept w.node.inbound
  outbound : Ascending KeysKept w.node.outbound
  inboundRead : w.node.phase ≠ .down → w.inboundOverlooked = false →
    Grounded E.cIn KeysKept w.node.inbound
  outboundRead : w.node.phase ≠ .down → w.outboundOverlooked = false →
    Grounded E.cOut KeysKept w.node.outbound

/-- A node that is off, over any files. -/
theorem watchedOff_kept (inFile outFile : Option β) (m : ChannelManager) :
    Kept E (watchedOff inFile outFile m) where
  refined := offNode_refined inFile outFile m
  inbound := opened_ascending _ _
  outbound := opened_ascending _ _
  inboundRead := fun h => absurd rfl h
  outboundRead := fun h => absurd rfl h

/-- What a move does to a store while its process lives; `lands` is what allows a
    completion to succeed. -/
inductive Change {σ μ : Type} (c : Codec σ β) (apply : μ → σ → σ) (lands : Prop)
    (g h : Guarded σ β TaskId) : Prop where
  | same (hg : h = g)
  | changed (m : μ) (hg : h = critical c (apply m) g)
  | settled (i : Nat) (ok : Bool) (hok : ok = true → lands)
      (hg : settleWrite g i ok = some h)

/-- The move ends the process, starts one, or stays in it. -/
inductive Course (E : NodeEnv β) (s : Node β) (a : NodeAction) (t : Node β) : Prop where
  | off (ht : t = powerOff s) (ha : ∀ rIn rOut, a ≠ .boot rIn rOut)
  | boot (rIn rOut : Bool) (ha : a = .boot rIn rOut) (ht : t = startUp E s rIn rOut)
  | moved (ha : ∀ rIn rOut, a ≠ .boot rIn rOut)
      (hin : Change E.cIn applyInbound (∃ i, a = .settleInbound i true)
        s.inbound t.inbound)
      (hout : Change E.cOut applyOutbound (∃ i, a = .settleOutbound i true)
        s.outbound t.outbound)
      (hup : t.phase ≠ .down → s.phase ≠ .down)

/-- What a move does to each of the two stores. -/
theorem move_course (h : Move E s a t) : Course E s a t := by
  cases h with
  | refused cmd => exact .moved (by rintro _ _ ⟨⟩) (.same rfl) (.same rfl) id
  | recorded hrun hplan =>
      exact .moved (by rintro _ _ ⟨⟩) (.same rfl) (.changed (.recordPending _ _) rfl) id
  | invoiced hrun =>
      exact .moved (by rintro _ _ ⟨⟩) (.changed (.getInvoice _ _) rfl) (.same rfl) id
  | resumed hrun hk ht => exact .moved (by rintro _ _ ⟨⟩) (.same rfl) (.same rfl) id
  | accepted hrun hk hnew => exact .moved (by rintro _ _ ⟨⟩) (.same rfl) (.same rfl) id
  | rejected hrun hk => exact .moved (by rintro _ _ ⟨⟩) (.same rfl) (.same rfl) id
  | marked hrun hk =>
      exact .moved (by rintro _ _ ⟨⟩) (.same rfl) (.changed (.sendRejected _) rfl) id
  | @settledInbound i ok g hg =>
      exact .moved (by rintro _ _ ⟨⟩) (.settled i ok (fun hok => ⟨i, by rw [hok]⟩) hg)
        (.same rfl) id
  | @settledOutbound i ok g hg =>
      exact .moved (by rintro _ _ ⟨⟩) (.same rfl)
        (.settled i ok (fun hok => ⟨i, by rw [hok]⟩) hg) id
  | emitted hup hev => exact .moved (by rintro _ _ ⟨⟩) (.same rfl) (.same rfl) id
  | @handled j ev hrun hj =>
      unfold handleEvent
      split
      · exact .moved (by rintro _ _ ⟨⟩) (.same rfl) (.same rfl) id
      · rename_i m hm
        exact .moved (by rintro _ _ ⟨⟩) (.changed m rfl) (.same rfl) id
      · rename_i m hm
        exact .moved (by rintro _ _ ⟨⟩) (.same rfl) (.changed m rfl) id
  | forgotten hup hdone => exact .moved (by rintro _ _ ⟨⟩) (.same rfl) (.same rfl) id
  | crashed hup => exact .off rfl (by rintro _ _ ⟨⟩)
  | booted hdown => exact .boot _ _ rfl rfl
  | started hstart hok =>
      exact .moved (by rintro _ _ ⟨⟩) (.same rfl) (.same rfl)
        (fun _ hd => nomatch hstart.symm.trans hd)
  | startFailed hstart hok => exact .off rfl (by rintro _ _ ⟨⟩)

section Changes

variable {μ : Type} {c : Codec (Std.ExtTreeMap Bytes32 V) β}
  {apply : μ → Std.ExtTreeMap Bytes32 V → Std.ExtTreeMap Bytes32 V} {lands : Prop}
  {g h : Guarded (Std.ExtTreeMap Bytes32 V) β TaskId}

/-- Changes that keep the keys keep the calls in order. -/
theorem change_ascending (happly : ∀ m store, KeysKept store (apply m store))
    (he : Change c apply lands g h) (hg : Ascending KeysKept g) :
    Ascending KeysKept h := by
  cases he with
  | same heq =>
      rw [heq]
      exact hg
  | changed m heq =>
      rw [heq]
      exact critical_ascending hg (happly m g.mem)
  | settled i ok hok hset => exact settle_ascending hg hset

theorem change_grounded (happly : ∀ m store, KeysKept store (apply m store))
    (he : Change c apply lands g h) (hg : Grounded c KeysKept g) :
    Grounded c KeysKept h := by
  cases he with
  | same heq =>
      rw [heq]
      exact hg
  | changed m heq =>
      rw [heq]
      exact critical_grounded hg (happly m g.mem)
  | settled i ok hok hset => exact settle_grounded hg hset

/-- The file rises over a change, where no write lands over what was not read. -/
theorem change_rises (hc : Coherent c g) (hg : Ascending KeysKept g)
    (hlands : lands → Grounded c KeysKept g) (he : Change c apply lands g h) :
    Rises c KeysKept g h := by
  cases he with
  | same heq => exact rises_of_same (by rw [heq])
  | changed m heq =>
      rw [heq]
      exact critical_rises hc
  | settled i ok hok hset => exact settle_rises hc hg (fun h => hlands (hok h)) hset

end Changes

/-- One step keeps the invariant. -/
theorem step_kept (hw : Kept E w) (h : watchedStep E w a = some w') : Kept E w' := by
  obtain ⟨hmove, hnote⟩ := watchedStep_move h
  have hrefined := move_refined hw.refined hmove
  cases move_course hmove with
  | off ht ha =>
      refine ⟨hrefined, ?_, ?_, ?_, ?_⟩ <;> rw [ht]
      · exact opened_ascending _ _
      · exact opened_ascending _ _
      · exact fun hn => absurd rfl hn
      · exact fun hn => absurd rfl hn
  | boot rIn rOut ha ht =>
      -- a start-up that has seen the records of a file begins above them
      rcases hnote with ⟨_, _, hb, hnIn, hnOut⟩ | ⟨hnot, -, -⟩
      · obtain ⟨rfl, rfl⟩ := NodeAction.boot.inj (ha.symm.trans hb)
        refine ⟨hrefined, ?_, ?_, ?_, ?_⟩ <;> rw [ht]
        · exact opened_ascending _ _
        · exact callWrite_ascending (opened_ascending _ _)
        · intro _ hseen
          exact opened_grounded fun m hm => read_keysKept (hnIn.symm.trans hseen) hm
        · intro _ hseen
          refine callWrite_grounded (opened_grounded fun m hm => ?_)
          exact (read_keysKept (hnOut.symm.trans hseen) hm).trans (map_keysKept _ _)
      · exact absurd ha (hnot rIn rOut)
  | moved ha hin hout hup =>
      rcases hnote with ⟨rIn, rOut, hb, -, -⟩ | ⟨-, hnIn, hnOut⟩
      · exact absurd hb (ha rIn rOut)
      · exact ⟨hrefined, change_ascending applyInbound_keysKept hin hw.inbound,
          change_ascending applyOutbound_keysKept hout hw.outbound,
          fun hn hseen => change_grounded applyInbound_keysKept hin
            (hw.inboundRead (hup hn) (hnIn.symm.trans hseen)),
          fun hn hseen => change_grounded applyOutbound_keysKept hout
            (hw.outboundRead (hup hn) (hnOut.symm.trans hseen))⟩

private theorem settleWrite_unwritten {σ : Type} {mem : σ} {base : Option β} {i : Nat}
    {ok : Bool} : settleWrite (opened mem base : Guarded σ β TaskId) i ok = none := rfl

/-- A process is there whenever a write completes. -/
theorem settle_up (hs : Refined E s)
    (h : Move E s a t) (ha : (∃ i, a = .settleInbound i true) ∨
      ∃ i, a = .settleOutbound i true) : s.phase ≠ .down := by
  intro hd
  rcases ha with ⟨i, rfl⟩ | ⟨i, rfl⟩
  · obtain ⟨mem, base, hopen⟩ := hs.unwritten (by rw [hd]; rintro ⟨⟩)
    cases h with
    | settledInbound hg =>
        rw [hopen, settleWrite_unwritten] at hg
        cases hg
  · obtain ⟨mem, base, hopen⟩ := hs.off hd
    cases h with
    | settledOutbound hg =>
        rw [hopen, settleWrite_unwritten] at hg
        cases hg

/-- One step loses no inbound record, when it is no write of the inbound file by a
    process that has overlooked some. -/
theorem step_inbound_rises (hw : Kept E w) (hguard : InboundWritesRead w a)
    (h : watchedStep E w a = some w') :
    Rises E.cIn KeysKept w.node.inbound w'.node.inbound := by
  obtain ⟨hmove, -⟩ := watchedStep_move h
  cases move_course hmove with
  | off ht ha =>
      rw [ht]
      exact rises_of_same rfl
  | boot rIn rOut ha ht =>
      rw [ht]
      exact rises_of_same rfl
  | moved ha hin hout hup =>
      refine change_rises (node_coherent hw.refined).1 hw.inbound ?_ hin
      rintro ⟨i, rfl⟩
      exact hw.inboundRead (settle_up hw.refined hmove (Or.inl ⟨i, rfl⟩)) hguard

/-- A start-up writes the outbound file at once. -/
theorem step_outbound_rises (hw : Kept E w) (hguard : OutboundWritesRead w a)
    (h : watchedStep E w a = some w') :
    Rises E.cOut KeysKept w.node.outbound w'.node.outbound := by
  obtain ⟨hmove, -⟩ := watchedStep_move h
  cases move_course hmove with
  | off ht ha =>
      rw [ht]
      exact rises_of_same rfl
  | boot rIn rOut ha ht =>
      rw [ht]
      exact rises_of_same (content_issue (opened_ordered _) _)
  | moved ha hin hout hup =>
      refine change_rises (node_coherent hw.refined).2.1 hw.outbound ?_ hout
      rintro ⟨i, rfl⟩
      exact hw.outboundRead (settle_up hw.refined hmove (Or.inr ⟨i, rfl⟩)) hguard

/-! ## Whole runs -/

/-- Over a run without such writes of the inbound file it rises. -/
theorem reach_inbound_rises (hw : Kept E w)
    (h : Reach (watchedStep E) InboundWritesRead w w') :
    Rises E.cIn KeysKept w.node.inbound w'.node.inbound :=
  reach_relates (I := Kept E)
    (R := fun w w' => Rises E.cIn KeysKept w.node.inbound w'.node.inbound)
    (fun _ => rises_of_same rfl) (fun _ _ _ h1 h2 => h1.trans h2)
    (fun _ _ _ hk _ hst => step_kept hk hst)
    (fun _ _ _ hk hg hst => step_inbound_rises hk hg hst) h hw

/-- And so does the outbound file, by its own condition. -/
theorem reach_outbound_rises (hw : Kept E w)
    (h : Reach (watchedStep E) OutboundWritesRead w w') :
    Rises E.cOut KeysKept w.node.outbound w'.node.outbound :=
  reach_relates (I := Kept E)
    (R := fun w w' => Rises E.cOut KeysKept w.node.outbound w'.node.outbound)
    (fun _ => rises_of_same rfl) (fun _ _ _ h1 h2 => h1.trans h2)
    (fun _ _ _ hk _ hst => step_kept hk hst)
    (fun _ _ _ hk hg hst => step_outbound_rises hk hg hst) h hw

/-- **NOTHING FORGOTTEN**: a record that one of the files holds at some point of a
    run is in that file at every later point, through crashes and restarts, as long
    as no write of that file succeeds from there on in a process whose start-up could
    not read it while it held records.  What happens to the other file is free. -/
theorem recorded_kept (inFile outFile : Option β) (manager : ChannelManager)
    (hw : Reach (watchedStep E) anyStep (watchedOff inFile outFile manager) w)
    (k : Bytes32) :
    (∀ w', Reach (watchedStep E) InboundWritesRead w w' →
        Recorded E.cIn (content w.node.inbound.file) k →
        Recorded E.cIn (content w'.node.inbound.file) k) ∧
      (∀ w', Reach (watchedStep E) OutboundWritesRead w w' →
        Recorded E.cOut (content w.node.outbound.file) k →
        Recorded E.cOut (content w'.node.outbound.file) k) := by
  have hk : Kept E w :=
    reach_invariant (fun _ _ _ hI _ hst => step_kept hI hst) hw
      (watchedOff_kept inFile outFile manager)
  exact ⟨fun w' hw' => recorded_of_rises (reach_inbound_rises hk hw'),
    fun w' hw' => recorded_of_rises (reach_outbound_rises hk hw')⟩

/-! ## An overlooked file -/

/-- A first start-up, an invoice over the hash of 2 and a payment of the invoice
    of 1, both written. -/
def recordRun : List NodeAction :=
  firstBoot ++ ([.send (.sendPayment (invoiceOf 1) none), .settleOutbound 1 true,
    .getInvoice 1000 (some ⟨Vector.replicate 32 2, Vector.replicate 32 0⟩),
    .settleInbound 0 true] : List NodeAction)

/-- A start-up that overlooks the inbound file, and a new invoice that overwrites it,
    cost no outbound record. -/
def blindInboundRun : List NodeAction :=
  [.crash, .boot false true, .settleOutbound 0 true, .started,
    .getInvoice 1000 (some ⟨Vector.replicate 32 4, Vector.replicate 32 0⟩),
    .settleInbound 0 true]

/-- One that overlooks the outbound file, and overwrites it, costs no inbound one. -/
def blindOutboundRun : List NodeAction := [.crash, .boot true false, .settleOutbound 0 true]

/-- A start that cannot read one file does not endanger the other. -/
theorem recorded_kept_blindBoot :
    (∃ w w' : Watched OutboundPaymentInfoStorage,
      Reach (watchedStep plainEnv) anyStep (watchedOff none none ⟨[], [], []⟩) w ∧
      Reach (watchedStep plainEnv) OutboundWritesRead w w' ∧ w'.inboundOverlooked = true ∧
      Recorded plainEnv.cOut (content w.node.outbound.file) (Vector.replicate 32 1) ∧
      Recorded plainEnv.cOut (content w'.node.outbound.file) (Vector.replicate 32 1)) ∧
    ∃ w w' : Watched OutboundPaymentInfoStorage,
      Reach (watchedStep plainEnv) anyStep (watchedOff none none ⟨[], [], []⟩) w ∧
      Reach (watchedStep plainEnv) InboundWritesRead w w' ∧ w'.outboundOverlooked = true ∧
      Recorded plainEnv.cIn (content w.node.inbound.file) (Vector.replicate 32 2) ∧
      Recorded plainEnv.cIn (content w'.node.inbound.file) (Vector.replicate 32 2) := by
  constructor
  · obtain ⟨w, hw, hcheck⟩ := reach_of_check (watchedOff none none ⟨[], [], []⟩)
      (watchedStep plainEnv) anyStep recordRun
      (fun w => decide (Recorded plainEnv.cOut (content w.node.outbound.file)
        (Vector.replicate 32 1)) && (runIf (watchedStep plainEnv) OutboundWritesRead w
          blindInboundRun).any Watched.inboundOverlooked)
      (by decide +kernel)
    obtain ⟨hold, hrun⟩ := Bool.and_eq_true _ _ |>.mp hcheck
    obtain ⟨w', hw', hblind⟩ := reach_of_check w _ _ _ _ hrun
    have hmem := of_decide_eq_true hold
    exact ⟨w, w', hw, hw', hblind, hmem,
      (recorded_kept none none ⟨[], [], []⟩ hw (Vector.replicate 32 1)).2 w' hw' hmem⟩
  · obtain ⟨w, hw, hcheck⟩ := reach_of_check (watchedOff none none ⟨[], [], []⟩)
      (watchedStep plainEnv) anyStep recordRun
      (fun w => decide (Recorded plainEnv.cIn (content w.node.inbound.file)
        (Vector.replicate 32 2)) && (runIf (watchedStep plainEnv) InboundWritesRead w
          blindOutboundRun).any Watched.outboundOverlooked)
      (by decide +kernel)
    obtain ⟨hold, hrun⟩ := Bool.and_eq_true _ _ |>.mp hcheck
    obtain ⟨w', hw', hblind⟩ := reach_of_check w _ _ _ _ hrun
    have hmem := of_decide_eq_true hold
    exact ⟨w, w', hw, hw', hblind, hmem,
      (recorded_kept none none ⟨[], [], []⟩ hw (Vector.replicate 32 2)).1 w' hw' hmem⟩

/-- **FORGOTTEN**: a start-up that cannot read the outbound file overwrites it at
    once; one that cannot read the inbound file leaves that to the next invoice. -/
theorem unreadable_files_forgotten :
    (∃ s t : Node OutboundPaymentInfoStorage,
      Reach (step plainEnv) anyStep (newNode _) s ∧ Reach (step plainEnv) anyStep s t ∧
      Recorded plainEnv.cOut (content s.outbound.file) (Vector.replicate 32 1) ∧
      ¬ Recorded plainEnv.cOut (content t.outbound.file) (Vector.replicate 32 1)) ∧
    ∃ s t : Node OutboundPaymentInfoStorage,
      Reach (step plainEnv) anyStep (newNode _) s ∧ Reach (step plainEnv) anyStep s t ∧
      Recorded plainEnv.cIn (content s.inbound.file) (Vector.replicate 32 2) ∧
      ¬ Recorded plainEnv.cIn (content t.inbound.file) (Vector.replicate 32 2) := by
  constructor
  · obtain ⟨s, t, hs, hold, ht, hgone⟩ := reach_reach_of_check (newNode _)
      (step plainEnv) anyStep recordRun blindOutboundRun
      (fun s => decide (Recorded plainEnv.cOut (content s.outbound.file)
        (Vector.replicate 32 1)))
      (fun s => decide (¬ Recorded plainEnv.cOut (content s.outbound.file)
        (Vector.replicate 32 1)))
      (by decide +kernel)
    exact ⟨s, t, hs, ht, of_decide_eq_true hold, of_decide_eq_true hgone⟩
  · obtain ⟨s, t, hs, hold, ht, hgone⟩ := reach_reach_of_check (newNode _)
      (step plainEnv) anyStep recordRun blindInboundRun
      (fun s => decide (Recorded plainEnv.cIn (content s.inbound.file)
        (Vector.replicate 32 2)))
      (fun s => decide (¬ Recorded plainEnv.cIn (content s.inbound.file)
        (Vector.replicate 32 2)))
      (by decide +kernel)
    exact ⟨s, t, hs, ht, of_decide_eq_true hold, of_decide_eq_true hgone⟩

end RecordsKept
