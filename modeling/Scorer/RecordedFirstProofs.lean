import Scorer.PaymentRefineProofs

/-! # Payments are recorded before they are sent

    A send path inserts its record and issues the write in one critical section,
    waits for that write, and only then asks the `ChannelManager`.  No change
    removes a record, so every later snapshot of the outbound store has it too:
    whatever handler rewrites the file, and wherever a crash cuts the process, the
    file has a record of every id that was asked for (`asked_recorded`). -/

namespace RecordedFirst

open LabelledRun WriteOrder LockedStore PaymentStore PaymentSend PaymentWrite
open PaymentNode PaymentRefine

variable {β : Type} {E : NodeEnv β} {s t : Node β} {a : NodeAction}
  {g h : Guarded OutboundPaymentInfoStorage β TaskId} {id : PaymentId} {w : Nat}

/-- The store has a record of `id`. -/
def HasRecord (id : PaymentId) (m : OutboundPaymentInfoStorage) : Prop := m[id]?.isSome

/-- The outbound file has a record of `id`. -/
def OnDisk (E : NodeEnv β) (s : Node β) (id : PaymentId) : Prop :=
  ∃ stored, (content s.outbound.file).bind E.cOut.decode = some stored ∧
    HasRecord id stored

/-- From its `w`-th call on, the store has a record of `id`. -/
abbrev RecordedFrom (g : Guarded OutboundPaymentInfoStorage β TaskId) (id : PaymentId)
    (w : Nat) : Prop := HoldsFrom (HasRecord id) g w

/-- No change removes a record. -/
theorem recordedFrom_effect (he : Effect E.cOut applyOutbound g h)
    (hg : RecordedFrom g id w) : RecordedFrom h id w :=
  holdsFrom_effect he (fun m _ => applyOutbound_keysKept m g.mem id hg.mem) hg

/-! ## The invariant -/

/-- What a task relies on at its point of a send path. -/
def TaskRecorded (g : Guarded OutboundPaymentInfoStorage β TaskId) : Task → Prop
  | .recording plan w => RecordedFrom g plan.paymentId w
  | .calling plan w => RecordedFrom g plan.paymentId w ∧ Landed g w
  | _ => True

/-- An id that was asked for: on disk, and as long as the process lives in every
    snapshot that may still reach the disk. -/
structure AskedRecorded (E : NodeEnv β) (s : Node β) (id : PaymentId) : Prop where
  disk : OnDisk E s id
  live : s.phase ≠ .down → ∃ w, RecordedFrom s.outbound id w ∧ Landed s.outbound w

/-- What holds in every state: each task that has asked, and each id that was asked for,
    has its record where a crash cannot reach it. -/
structure Recorded (E : NodeEnv β) (s : Node β) : Prop where
  refined : Refined E s
  tasks : ∀ u ∈ s.tasks, TaskRecorded s.outbound u
  asked : ∀ id ∈ s.asked, AskedRecorded E s id

/-- What a task has recorded stays recorded over an effect on the store. -/
theorem taskRecorded_effect (he : Effect E.cOut applyOutbound g h) {u : Task}
    (hu : TaskRecorded g u) : TaskRecorded h u := by
  cases u with
  | recording plan w => exact recordedFrom_effect he hu
  | calling plan w => exact ⟨recordedFrom_effect he hu.1, landed_effect he hu.2⟩
  | rejected plan => trivial
  | marking w => trivial
  | invoicing w => trivial
  | handlingInbound ev w => trivial
  | handlingOutbound ev w => trivial
  | finished => trivial

/-- A recorded id stays recorded while the process lives. -/
theorem askedRecorded_effect (ht : Refined E t)
    (hup : s.phase ≠ .down) (he : Effect E.cOut applyOutbound s.outbound t.outbound)
    (hid : AskedRecorded E s id) : AskedRecorded E t id := by
  obtain ⟨w, hrec, hl⟩ := hid.live hup
  have hrec' := recordedFrom_effect he hrec
  have hl' := landed_effect he hl
  exact ⟨content_holds (node_coherent ht).2.1 hrec' hl', fun _ => ⟨w, hrec', hl'⟩⟩

/-- A move that keeps the process alive keeps the invariant once its new tasks
    and its newly asked ids have it. -/
private theorem recorded_of_effect (hs : Recorded E s) (ht : Refined E t)
    (hup : s.phase ≠ .down)
    (he : Effect E.cOut applyOutbound s.outbound t.outbound)
    (htasks : ∀ u ∈ t.tasks, u ∈ s.tasks ∨ TaskRecorded t.outbound u)
    (hasked : ∀ id ∈ t.asked, id ∈ s.asked ∨
      ∃ w, RecordedFrom s.outbound id w ∧ Landed s.outbound w) : Recorded E t where
  refined := ht
  tasks := by
    intro u hu
    rcases htasks u hu with hold | hnew
    · exact taskRecorded_effect he (hs.tasks u hold)
    · exact hnew
  asked := by
    intro id hid
    refine askedRecorded_effect ht hup he ?_
    rcases hasked id hid with hold | ⟨w, hrec, hl⟩
    · exact hs.asked id hold
    · exact ⟨content_holds (node_coherent hs.refined).2.1 hrec hl, fun _ => ⟨w, hrec, hl⟩⟩

private theorem up_of_running (h : s.phase = .running) : s.phase ≠ .down :=
  fun hd => nomatch h.symm.trans hd

/-- A crash: the records are in the file by then. -/
theorem powerOff_recorded (hs : Recorded E s) (ht : Refined E (powerOff s)) :
    Recorded E (powerOff s) where
  refined := ht
  tasks := fun _ hu => nomatch hu
  asked := fun id hid => ⟨(hs.asked id hid).disk, fun hup => absurd rfl hup⟩

/-- One move of the node, arm by arm. -/
theorem move_recorded (hs : Recorded E s) (hm : Move E s a t) : Recorded E t := by
  have ht : Refined E t := move_refined hs.refined hm
  cases hm with
  | refused cmd => exact hs
  | @recorded cmd plan hrun hplan =>
      refine recorded_of_effect hs ht (up_of_running hrun)
        (.changed (.recordPending _ _) rfl) ?_ (fun id hid => Or.inl hid)
      refine fun u hu => task_of_push hu (holdsFrom_new ?_)
      rw [HasRecord, applyOutbound, recordPending_get, if_pos rfl]
      rfl
  | @invoiced amt created hrun =>
      exact recorded_of_effect hs ht (up_of_running hrun) (.same rfl)
        (fun u hu => task_of_push hu trivial) (fun id hid => Or.inl hid)
  | @resumed k u u' hrun hk hu =>
      refine recorded_of_effect hs ht (up_of_running hrun) (.same rfl) ?_
        (fun id hid => Or.inl hid)
      refine fun v hv => task_of_set hv ?_
      cases resumeTask_resumed hu with
      | @recorded plan w hok =>
          -- the record's own write has succeeded: the call may follow
          have hl : Landed s.outbound w := landed_of_outcome hs.refined hok
          exact ⟨hs.tasks _ (List.mem_of_getElem? hk), hl⟩
      | unrecorded hok => trivial
      | ended hid => trivial
  | @accepted k w plan hrun hk hnew =>
      refine recorded_of_effect hs ht (up_of_running hrun) (.same rfl)
        (fun u hu => task_of_set hu trivial) ?_
      intro id hid
      rcases List.mem_cons.mp hid with rfl | hold
      · exact Or.inr ⟨w, hs.tasks _ (List.mem_of_getElem? hk)⟩
      · exact Or.inl hold
  | @rejected k w plan hrun hk =>
      refine recorded_of_effect hs ht (up_of_running hrun) (.same rfl) ?_ ?_
      · refine fun u hu => task_of_set hu ?_
        cases marksRejection plan.call <;> trivial
      · intro id hid
        rcases List.mem_cons.mp hid with rfl | hold
        · exact Or.inr ⟨w, hs.tasks _ (List.mem_of_getElem? hk)⟩
        · exact Or.inl hold
  | @marked k plan hrun hk =>
      exact recorded_of_effect hs ht (up_of_running hrun)
        (.changed (.sendRejected _) rfl) (fun u hu => task_of_set hu trivial)
        (fun id hid => Or.inl hid)
  | settledInbound hg =>
      by_cases hd : s.phase = .down
      · exact ⟨ht, hs.tasks, fun id hid =>
          ⟨(hs.asked id hid).disk, fun hup => absurd hd hup⟩⟩
      · exact recorded_of_effect hs ht hd (.same rfl) (fun u hu => Or.inl hu)
          (fun id hid => Or.inl hid)
  | @settledOutbound i ok g hg =>
      by_cases hd : s.phase = .down
      · -- a node that is off has no write outstanding
        obtain ⟨mem, base, hopen⟩ := hs.refined.off hd
        rw [hopen] at hg
        exact nomatch hg
      · exact recorded_of_effect hs ht hd (.settled i ok hg) (fun u hu => Or.inl hu)
          (fun id hid => Or.inl hid)
  | emitted hup hev =>
      exact recorded_of_effect hs ht hup (.same rfl) (fun u hu => Or.inl hu)
        (fun id hid => Or.inl hid)
  | @handled j ev hrun hj =>
      revert ht
      unfold handleEvent
      split
      · intro ht
        exact recorded_of_effect hs ht (up_of_running hrun) (.same rfl)
          (fun u hu => Or.inl hu) (fun id hid => Or.inl hid)
      · intro ht
        exact recorded_of_effect hs ht (up_of_running hrun) (.same rfl)
          (fun u hu => task_of_push hu trivial) (fun id hid => Or.inl hid)
      · rename_i m hm
        intro ht
        exact recorded_of_effect hs ht (up_of_running hrun) (.changed m rfl)
          (fun u hu => task_of_push hu trivial) (fun id hid => Or.inl hid)
  | forgotten hup hdone =>
      exact recorded_of_effect hs ht hup (.same rfl) (fun u hu => Or.inl hu)
        (fun id hid => Or.inl hid)
  | crashed hup => exact powerOff_recorded hs ht
  | booted hdown => exact ⟨ht, (fun _ hu => nomatch hu), (fun _ hid => nomatch hid)⟩
  | started hstart hok =>
      refine ⟨ht, hs.tasks, fun id hid => ?_⟩
      have hold := hs.asked id hid
      exact ⟨hold.disk, fun _ => hold.live (fun hd => nomatch hstart.symm.trans hd)⟩
  | startFailed hstart hok => exact powerOff_recorded hs ht

/-- A node that is off has asked for nothing. -/
theorem offNode_recorded (inFile outFile : Option β) (m : ChannelManager) :
    Recorded E (offNode inFile outFile m) where
  refined := offNode_refined inFile outFile m
  tasks := fun _ hu => nomatch hu
  asked := fun _ hid => nomatch hid

theorem reach_recorded {guard : Node β → NodeAction → Prop}
    (h : Reach (step E) guard s t) (hs : Recorded E s) : Recorded E t :=
  reach_invariant (fun _ _ _ hI _ hst => move_recorded hI (step_move hst)) h hs

/-! ## The law -/

/-- The process is not started again. -/
def noBoot : Node β → NodeAction → Prop
  | _, .boot _ _ => False
  | _, _ => True

instance noBootDecidable (s : Node β) : (a : NodeAction) → Decidable (noBoot s a)
  | .boot _ _ => inferInstanceAs (Decidable False)
  | .send _ | .getInvoice _ _ | .resume _ | .accept _ | .reject _ | .markRejected _
  | .settleInbound _ _ | .settleOutbound _ _ | .emit _ | .handle _ | .forget _
  | .crash | .started =>
      inferInstanceAs (Decidable True)

/-- Only a start-up forgets what was asked. -/
theorem move_asked (hm : Move E s a t) (hno : noBoot s a) (hid : id ∈ s.asked) :
    id ∈ t.asked := by
  cases hm with
  | accepted hrun hk hnew => exact List.mem_cons_of_mem _ hid
  | rejected hrun hk => exact List.mem_cons_of_mem _ hid
  | handled hrun hj =>
      unfold handleEvent
      split <;> exact hid
  | booted hdown => exact hno.elim
  | _ => exact hid

/-- **RECORDED FIRST**: an id that the `ChannelManager` was asked to pay has a
    record in the outbound file, and has one in every later state of the process
    and in what a crash leaves of it. -/
theorem asked_recorded (inFile outFile : Option β) (m : ChannelManager) (s t : Node β)
    (id : PaymentId) (hs : Reach (step E) anyStep (offNode inFile outFile m) s)
    (hid : id ∈ s.asked) (ht : Reach (step E) noBoot s t) :
    OnDisk E s id ∧ id ∈ t.asked ∧ OnDisk E t id := by
  have hrecS := reach_recorded hs (offNode_recorded inFile outFile m)
  have hrecT := reach_recorded ht hrecS
  have hidT : id ∈ t.asked := by
    refine reach_invariant (I := fun u => id ∈ u.asked) ?_ ht hid
    intro u a v hI hno hst
    exact move_asked (step_move hst) hno hI
  exact ⟨(hrecS.asked id hid).disk, hidT, (hrecT.asked id hidT).disk⟩

/-- A first start-up, and a keysend up to the answer of the `ChannelManager`. -/
def keysendRun : List NodeAction :=
  firstBoot ++ ([.send (.keysend 1000 (Vector.replicate 32 7)), .settleOutbound 1 true,
    .resume 0, .accept 0] : List NodeAction)

/-- A keysend that is asked for, and a crash. -/
theorem asked_recorded_keysendRun :
    ∃ s t : Node OutboundPaymentInfoStorage,
      Reach (step plainEnv) anyStep (newNode _) s ∧ Reach (step plainEnv) noBoot s t ∧
      t.phase = .down ∧ OnDisk plainEnv s (Vector.replicate 32 7) ∧
      Vector.replicate 32 7 ∈ t.asked ∧ OnDisk plainEnv t (Vector.replicate 32 7) := by
  obtain ⟨s, hs, hcheck⟩ := reach_of_check (newNode OutboundPaymentInfoStorage)
    (step plainEnv) anyStep keysendRun
    (fun s => decide (Vector.replicate 32 7 ∈ s.asked) &&
      (runIf (step plainEnv) noBoot s [.crash]).any
        fun t : Node OutboundPaymentInfoStorage => decide (t.phase = .down))
    (by decide +kernel)
  obtain ⟨hid, hrest⟩ := Bool.and_eq_true _ _ |>.mp hcheck
  obtain ⟨t, ht, hdown⟩ := reach_of_check _ _ _ _ _ hrest
  exact ⟨s, t, hs, ht, of_decide_eq_true hdown,
    asked_recorded none none ⟨[], [], []⟩ s t _ hs (of_decide_eq_true hid) ht⟩

end RecordedFirst
