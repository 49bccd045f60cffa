import Scorer.AllowedTraceProofs
import Scorer.BackoffProofs
import Scorer.TornTimestampProofs

/-! # Rounds of rapid gossip sync over HTTP

    A round asks the server for what is new since the saved timestamp, three times at
    most, applies the body to the network graph and saves the timestamp that comes out.
    A process makes one round at its start, and later ones only if that succeeded; it
    can be killed at any effect.

    * `syncNetworkGraph` is a round as the list of its effects;
    * `round_result`: when a round succeeds, and what it asked and waited before;
    * `session_sound`: over any processes, killed anywhere, only whole bodies are applied
      and no request skips an update that was never handed to the graph. -/

namespace SnapshotDownload

open AllowedTrace Backoff SyncTimestamp TornTimestamp

/-! ## One download -/

/-- What `send` comes to, and then the stream of the body. -/
inductive Reply where
  | sendFails (e : String)
  | response (status : UInt16) (statusText : String) (contentLength : Option UInt64)
      (chunks : List (Except String (List UInt8)))

/-- `RapidSyncError`. -/
inductive RapidSyncError (γ : Type) where
  | downloadFailed (msg : String)
  | parseFailed (e : γ)
  | ioError
  | retryExhausted
  deriving DecidableEq, Repr

/-- What a round does: log lines, requests with their replies, waits, calls of
    `update_network_graph` with their results, and the writes to `rapid_sync_state`. -/
inductive Effect (γ : Type) where
  | log (text : String)
  | progress (downloaded contentLength : Nat)
  | downloadComplete (bytes : Nat)
  | warnRetry (retryCount : Nat) (e : RapidSyncError γ) (backoffMs : Nat)
  | get (url : String) (reply : Reply)
  | sleep (ms : Nat)
  | update (snapshot : List UInt8) (result : Except γ UInt32)
  | create
  | write (byte : UInt8)

/-- `MAX_RETRIES`. -/
def maxRetries : Nat := 3

/-- `INITIAL_BACKOFF_MS`, `MAX_BACKOFF_MS`. -/
def backoff : Policy := ⟨1000, 60000, by decide⟩

/-- `StatusCode::is_success`. -/
def isSuccess (status : UInt16) : Bool := 200 ≤ status && status < 300

/-- `progress_step_bytes`. -/
def progressStep (contentLength : Nat) : Nat :=
  if contentLength > 0 then max (contentLength / 10) 1 else 2 ^ 64 - 1

variable {γ : Type}

/-- The loop over the chunks. -/
def readChunks (contentLength : Nat) : (chunks : List (Except String (List UInt8))) →
    (data : List UInt8) → (downloaded nextProgressThreshold : Nat) →
    List (Effect γ) × Except (RapidSyncError γ) (List UInt8)
  | [], data, _, _ => ([.downloadComplete data.length], .ok data)
  | .error e :: _, _, _, _ => ([], .error (.downloadFailed ("Failed to read chunk: " ++ e)))
  | .ok chunk :: chunks, data, downloaded, threshold =>
      let downloaded := downloaded + chunk.length
      let data := data ++ chunk
      if contentLength > 0 ∧ downloaded ≥ threshold then
        let rest := readChunks contentLength chunks data downloaded
          (min (threshold + progressStep contentLength) (2 ^ 64 - 1))
        (.progress downloaded contentLength :: rest.1, rest.2)
      else readChunks contentLength chunks data downloaded threshold

/-- `format!("{}{}", self.sync_url, last_sync)`. -/
def snapshotUrl (syncUrl : String) (lastSync : UInt32) : String :=
  syncUrl ++ String.ofList (printed lastSync)

/-- What becomes of a reply. -/
def readReply : Reply → List (Effect γ) × Except (RapidSyncError γ) (List UInt8)
  | .sendFails e => ([], .error (.downloadFailed ("HTTP request failed: " ++ e)))
  | .response status statusText contentLength chunks =>
      if isSuccess status then
        let contentLength := (contentLength.getD 0).toNat
        readChunks contentLength chunks [] 0 (progressStep contentLength)
      else ([], .error (.downloadFailed
        ("HTTP " ++ statusText ++ " - " ++ toString status.toNat)))

/-- `download_snapshot_attempt`. -/
def downloadSnapshotAttempt (syncUrl : String) (lastSync : UInt32) (reply : Reply) :
    List (Effect γ) × Except (RapidSyncError γ) (List UInt8) :=
  let url := snapshotUrl syncUrl lastSync
  let read := readReply reply
  (.log ("Downloading rapid gossip snapshot from: " ++ url) :: .get url reply :: read.1, read.2)

/-- The loop of `download_with_retry`; the `i`-th attempt gets `replies i`. -/
def retryLoop (syncUrl : String) (lastSync : UInt32) (replies : Nat → Reply)
    (retryCount backoffMs : Nat) : List (Effect γ) × Except (RapidSyncError γ) (List UInt8) :=
  let attempt := downloadSnapshotAttempt syncUrl lastSync (replies retryCount)
  match attempt.2 with
  | .ok data => (attempt.1, .ok data)
  | .error e =>
      if retryCount + 1 ≥ maxRetries then
        (attempt.1 ++ [.log ("Rapid gossip sync download failed after " ++
          toString maxRetries ++ " attempts")], .error .retryExhausted)
      else
        let rest := retryLoop syncUrl lastSync replies (retryCount + 1) (backoff.next backoffMs)
        (attempt.1 ++ .warnRetry (retryCount + 1) e backoffMs :: .sleep backoffMs :: rest.1,
          rest.2)
termination_by maxRetries - retryCount

/-- `download_with_retry`. -/
def downloadWithRetry (syncUrl : String) (lastSync : UInt32) (replies : Nat → Reply) :
    List (Effect γ) × Except (RapidSyncError γ) (List UInt8) :=
  retryLoop syncUrl lastSync replies 0 backoff.first

/-! ## A round -/

/-- What the calls of a round come to. -/
structure Round (γ : Type) where
  readFails : Bool
  replies   : Nat → Reply
  update    : List UInt8 → Except γ UInt32
  save      : SaveCalls

/-- What one effect leaves in `rapid_sync_state`. -/
def fileStep (file : Option (List UInt8)) : Effect γ → Option (List UInt8)
  | .create => some []
  | .write byte => file.map (· ++ [byte])
  | _ => file

/-- The content of `rapid_sync_state` after the effects. -/
def fileAfter (file : Option (List UInt8)) (trace : List (Effect γ)) : Option (List UInt8) :=
  trace.foldl fileStep file

/-- `save_last_sync_timestamp`, with the bytes one at a time. -/
def saveEffects (calls : SaveCalls) (timestamp : UInt32) : List (Effect γ) × Bool :=
  if calls.createFails then ([], false)
  else
    match calls.writeFails with
    | some n => (.create :: ((savedBytes timestamp).take n).map .write, false)
    | none => (.create :: (savedBytes timestamp).map .write, !calls.syncFails)

/-- The first line of a round. -/
def startedLog (since : UInt32) : Effect γ :=
  .log ("Starting rapid gossip sync from timestamp: " ++ String.ofList (printed since))

/-- The line between download and update. -/
def downloadedLog (snapshot : List UInt8) : Effect γ :=
  .log ("Downloaded snapshot of " ++ toString snapshot.length ++
    " bytes, applying to network graph...")

/-- The last line of a round that succeeds. -/
def completedLog (timestamp : UInt32) : Effect γ :=
  .log ("Rapid gossip sync completed. New timestamp: " ++ String.ofList (printed timestamp))

/-- `sync_network_graph`, with `rapid_sync_state` as it is before. -/
def syncNetworkGraph (syncUrl : String) (file : Option (List UInt8)) (round : Round γ) :
    List (Effect γ) × Except (RapidSyncError γ) UInt32 :=
  let since := lastSync round.readFails (file.map fileText)
  let download := downloadWithRetry syncUrl since round.replies
  let started := startedLog since :: download.1
  match download.2 with
  | .error e => (started, .error e)
  | .ok data =>
      let result := round.update data
      let applied := started ++ [downloadedLog data, .update data result]
      match result with
      | .error e => (applied, .error (.parseFailed e))
      | .ok timestamp =>
          let save := saveEffects round.save timestamp
          if save.2 then (applied ++ save.1 ++ [completedLog timestamp], .ok timestamp)
          else (applied ++ save.1, .error .ioError)

/-! ## Processes -/

/-- The periodic task: its rounds go on whatever they come to. -/
def periodicRounds (syncUrl : String) (file : Option (List UInt8)) :
    List (Round γ) → List (Effect γ)
  | [] => []
  | round :: rounds =>
      let made := (syncNetworkGraph syncUrl file round).1
      made ++ periodicRounds syncUrl (fileAfter file made) rounds

/-- A process: the round of `RapidGossipSyncManager::new`, and the periodic task if that
    round succeeded. -/
def processRounds (syncUrl : String) (file : Option (List UInt8)) :
    List (Round γ) → List (Effect γ)
  | [] => []
  | initial :: rounds =>
      let made := syncNetworkGraph syncUrl file initial
      match made.2 with
      | .error _ => made.1
      | .ok _ => made.1 ++ periodicRounds syncUrl (fileAfter file made.1) rounds

/-- A process that is killed after `lives` of its effects. -/
structure Process (γ : Type) where
  syncUrl : String
  rounds  : List (Round γ)
  lives   : Nat

/-- What a process gets to do before it is killed. -/
def Process.trace (p : Process γ) (file : Option (List UInt8)) : List (Effect γ) :=
  (processRounds p.syncUrl file p.rounds).take p.lives

/-- What the processes do, one after another, over one data directory. -/
def session (file : Option (List UInt8)) : List (Process γ) → List (Effect γ)
  | [] => []
  | p :: ps => p.trace file ++ session (fileAfter file (p.trace file)) ps

/-! ## What a session should do -/

/-- The body of a reply that arrived whole. -/
def wholeBody : Reply → Option (List UInt8)
  | .sendFails _ => none
  | .response status _ _ chunks =>
      if isSuccess status then (chunks.mapM Except.toOption).map List.flatten else none

/-- A line of the log. -/
def Effect.quiet : Effect γ → Bool
  | .log _ | .progress _ _ | .downloadComplete _ | .warnRetry _ _ _ => true
  | _ => false

/-- The effects that are not log lines. -/
def calls (trace : List (Effect γ)) : List (Effect γ) := trace.filter fun e => !e.quiet

/-- The last effect with `P` has only effects with `Q` after it. -/
def Since (P Q : Effect γ → Prop) (h : List (Effect γ)) : Prop :=
  ∃ earlier e later, h = earlier ++ e :: later ∧ P e ∧ ∀ d ∈ later, Q d

/-- The last effect that is not a log line. -/
def LastCall (P : Effect γ → Prop) : List (Effect γ) → Prop := Since P fun e => e.quiet = true

/-- A request whose body arrived whole, and was `data`. -/
def Answered (data : List UInt8) (e : Effect γ) : Prop :=
  ∃ url reply, e = .get url reply ∧ wholeBody reply = some data

/-- A request whose body did not arrive whole. -/
def Unanswered (e : Effect γ) : Prop :=
  ∃ url reply, e = .get url reply ∧ wholeBody reply = none

/-- The snapshot was applied, with this timestamp. -/
def Updated (timestamp : UInt32) (e : Effect γ) : Prop :=
  ∃ data, e = .update data (.ok timestamp)

/-- A write to the file, or a log line. -/
def Saving (e : Effect γ) : Prop := e.quiet = true ∨ e = .create ∨ ∃ byte, e = .write byte

/-- No later than the file at first, or than a snapshot that was applied. -/
def Covered (file : Option (List UInt8)) (h : List (Effect γ)) (since : UInt32) : Prop :=
  since ≤ lastSync false (file.map fileText) ∨
    ∃ data timestamp, .update data (.ok timestamp) ∈ h ∧ since ≤ timestamp

/-- What may be done after `h`, where `file` was found at first. -/
def May (urls : List String) (file : Option (List UInt8)) (h : List (Effect γ)) :
    Effect γ → Prop
  | .get url _ => ∃ syncUrl ∈ urls, ∃ since, url = snapshotUrl syncUrl since ∧
      (since = 0 ∨ since = lastSync false ((fileAfter file h).map fileText))
  | .sleep ms => LastCall Unanswered h ∧ (ms = 1000 ∨ ms = 2000)
  | .update data _ => LastCall (Answered data) h
  | .create => ∃ timestamp, LastCall (Updated timestamp) h
  | .write byte => ∃ timestamp written, Since (Updated timestamp) Saving h ∧
      fileAfter file h = some written ∧ written ++ [byte] <+: savedBytes timestamp
  | _ => True

/-! ## Files -/

variable {file : Option (List UInt8)} {h : List (Effect γ)}

theorem fileAfter_append (file : Option (List UInt8)) (t u : List (Effect γ)) :
    fileAfter file (t ++ u) = fileAfter (fileAfter file t) u :=
  List.foldl_append

/-- Only creating and writing change it. -/
theorem fileAfter_quiet {t : List (Effect γ)}
    (ht : ∀ e ∈ t, e ≠ .create ∧ ∀ byte, e ≠ .write byte) : fileAfter file t = file := by
  induction t with
  | nil => rfl
  | cons e rest ih =>
      have he := ht e List.mem_cons_self
      have hstep : fileStep file e = file := by
        cases e with
        | create => exact absurd rfl he.1
        | write byte => exact absurd rfl (he.2 byte)
        | _ => rfl
      rw [fileAfter, List.foldl_cons, hstep]
      exact ih fun d hd => ht d (List.mem_cons_of_mem _ hd)

/-- Bytes that are written come behind what there is. -/
theorem fileAfter_writes (written bytes : List UInt8) :
    fileAfter (some written) (bytes.map (.write : UInt8 → Effect γ)) =
      some (written ++ bytes) := by
  induction bytes generalizing written with
  | nil => rw [List.append_nil]; rfl
  | cons byte bytes ih =>
      show fileAfter (some (written ++ [byte])) (bytes.map .write) = _
      rw [ih, List.append_assoc]
      rfl

/-- The writes of a save leave what `save_last_sync_timestamp` leaves. -/
theorem saveEffects_file (calls : SaveCalls) (timestamp : UInt32)
    (file : Option (List UInt8)) :
    (fileAfter file (saveEffects calls timestamp : List (Effect γ) × Bool).1,
      (saveEffects calls timestamp : List (Effect γ) × Bool).2) =
      saveLastSyncTimestamp calls timestamp file := by
  have hwrites : ∀ bytes : List UInt8,
      fileAfter file (.create :: bytes.map (.write : UInt8 → Effect γ)) = some bytes :=
    fun bytes => fileAfter_writes [] bytes
  rw [saveEffects, saveLastSyncTimestamp]
  split
  · rfl
  · cases calls.writeFails with
    | none => exact Prod.ext (hwrites _) rfl
    | some n => exact Prod.ext (hwrites _) rfl

/-! ## Log lines in between -/

/-- What is allowed after the last one may go on. -/
theorem Since.append {P Q : Effect γ → Prop} (hs : Since P Q h) {t : List (Effect γ)}
    (ht : ∀ e ∈ t, Q e) : Since P Q (h ++ t) := by
  obtain ⟨earlier, e, later, rfl, hP, hQ⟩ := hs
  refine ⟨earlier, e, later ++ t, by simp, hP, fun d hd => ?_⟩
  exact (List.mem_append.mp hd).elim (hQ d) (ht d)

theorem since_concat {P Q : Effect γ → Prop} {e : Effect γ} (he : P e) :
    Since P Q (h ++ [e]) := ⟨h, e, [], rfl, he, fun _ hd => absurd hd List.not_mem_nil⟩

/-- More may be allowed after it. -/
theorem Since.imp {P Q R : Effect γ → Prop} (hs : Since P Q h) (hQ : ∀ e, Q e → R e) :
    Since P R h := by
  obtain ⟨earlier, e, later, hh, hP, hall⟩ := hs
  exact ⟨earlier, e, later, hh, hP, fun d hd => hQ d (hall d hd)⟩

theorem Since.mem {P Q : Effect γ → Prop} (hs : Since P Q h) : ∃ e ∈ h, P e := by
  obtain ⟨earlier, e, later, rfl, hP, -⟩ := hs
  exact ⟨e, by simp, hP⟩

variable {urls : List String}

/-- A line of the log is always allowed. -/
theorem may_of_quiet {e : Effect γ} (he : e.quiet = true) : May urls file h e := by
  cases e with
  | log | progress | downloadComplete | warnRetry => exact trivial
  | _ => exact nomatch he

theorem allowed_of_quiet {t : List (Effect γ)} (ht : ∀ e ∈ t, e.quiet = true) :
    Allowed (May urls file) h t :=
  allowed_of_forall fun e he _ => may_of_quiet (ht e he)

theorem fileAfter_of_quiet {t : List (Effect γ)} (ht : ∀ e ∈ t, e.quiet = true) :
    fileAfter file t = file := by
  refine fileAfter_quiet fun e he => ⟨?_, fun byte => ?_⟩
  · rintro rfl
    exact nomatch ht _ he
  · rintro rfl
    exact nomatch ht _ he

/-! ## One download -/

/-- The loop over the chunks writes log lines only, and joins the chunks. -/
theorem readChunks_spec (contentLength : Nat) (chunks : List (Except String (List UInt8)))
    (data : List UInt8) (downloaded threshold : Nat) :
    (∀ e ∈ (readChunks (γ := γ) contentLength chunks data downloaded threshold).1,
      e.quiet = true) ∧
    (readChunks (γ := γ) contentLength chunks data downloaded threshold).2.toOption =
      (chunks.mapM Except.toOption).map fun parts => data ++ parts.flatten := by
  induction chunks generalizing data downloaded threshold with
  | nil => simp [readChunks, Effect.quiet, Except.toOption]
  | cons chunk chunks ih =>
      cases chunk with
      | error e => simp [readChunks, Except.toOption]
      | ok chunk =>
          -- the chunks so far move into `data`
          have hparts : ((Except.ok chunk :: chunks).mapM Except.toOption).map
                (fun parts => data ++ parts.flatten) =
              (chunks.mapM Except.toOption).map fun parts => (data ++ chunk) ++ parts.flatten := by
            rw [List.mapM_cons]
            cases chunks.mapM Except.toOption with
            | none => rfl
            | some parts =>
                show some (data ++ (chunk :: parts).flatten) = _
                rw [List.flatten_cons, ← List.append_assoc]
                rfl
          rw [hparts, readChunks]
          split
          · obtain ⟨hquiet, hresult⟩ := ih (data ++ chunk) (downloaded + chunk.length)
              (min (threshold + progressStep contentLength) (2 ^ 64 - 1))
            exact ⟨List.forall_mem_cons.mpr ⟨rfl, hquiet⟩, hresult⟩
          · exact ih _ _ _

/-- Reading a reply only writes to the log. -/
theorem readReply_quiet (reply : Reply) :
    ∀ e ∈ (readReply reply : List (Effect γ) × _).1, e.quiet = true := by
  cases reply with
  | sendFails e => exact fun _ he => absurd he List.not_mem_nil
  | response status statusText contentLength chunks =>
      rw [readReply]
      split
      · exact (readChunks_spec _ _ _ _ _).1
      · exact fun _ he => absurd he List.not_mem_nil

/-- A download gives the body, or fails, as the reply is whole or not. -/
theorem readReply_result (reply : Reply) :
    (readReply reply : List (Effect γ) × _).2.toOption = wholeBody reply := by
  cases reply with
  | sendFails e => rfl
  | response status statusText contentLength chunks =>
      rw [readReply, wholeBody]
      split
      · refine (readChunks_spec _ _ _ _ _).2.trans ?_
        congr 1
      · rfl

/-! ## Attempts -/

section Attempts

variable (syncUrl : String) (since : UInt32) (replies : Nat → Reply)

/-- The effects of one attempt. -/
def attemptEffects (retryCount : Nat) : List (Effect γ) :=
  (downloadSnapshotAttempt syncUrl since (replies retryCount)).1

/-- How the loop can go on from an attempt, with the log lines left open. -/
inductive Attempts : (retryCount backoffMs : Nat) → List (Effect γ) →
    Except (RapidSyncError γ) (List UInt8) → Prop where
  | succeeds {retryCount backoffMs : Nat} {data : List UInt8}
      (hreply : wholeBody (replies retryCount) = some data) :
      Attempts retryCount backoffMs (attemptEffects syncUrl since replies retryCount) (.ok data)
  | exhausted {retryCount backoffMs : Nat} {logs : List (Effect γ)}
      (hreply : wholeBody (replies retryCount) = none) (hlimit : maxRetries ≤ retryCount + 1)
      (hlogs : ∀ e ∈ logs, e.quiet = true) :
      Attempts retryCount backoffMs (attemptEffects syncUrl since replies retryCount ++ logs)
        (.error .retryExhausted)
  | again {retryCount backoffMs : Nat} {logs trace : List (Effect γ)}
      {result : Except (RapidSyncError γ) (List UInt8)}
      (hreply : wholeBody (replies retryCount) = none) (hlimit : retryCount + 1 < maxRetries)
      (hlogs : ∀ e ∈ logs, e.quiet = true)
      (hrest : Attempts (retryCount + 1) (backoff.next backoffMs) trace result) :
      Attempts retryCount backoffMs
        (attemptEffects syncUrl since replies retryCount ++ (logs ++ .sleep backoffMs :: trace))
        result

/-- The loop is a row of attempts. -/
theorem retryLoop_attempts (retryCount backoffMs : Nat) :
    Attempts syncUrl since replies retryCount backoffMs
      (retryLoop (γ := γ) syncUrl since replies retryCount backoffMs).1
      (retryLoop (γ := γ) syncUrl since replies retryCount backoffMs).2 := by
  induction retryCount, backoffMs using retryLoop.induct (γ := γ) syncUrl since replies with
  | case1 retryCount backoffMs attempt data hdata =>
      have hreply := readReply_result (γ := γ) (replies retryCount)
      rw [show (readReply (replies retryCount)).2 = .ok data from hdata] at hreply
      rw [retryLoop, show (downloadSnapshotAttempt syncUrl since (replies retryCount)).2 =
        .ok data from hdata]
      exact .succeeds hreply.symm
  | case2 retryCount backoffMs attempt e he hlimit =>
      have hreply := readReply_result (γ := γ) (replies retryCount)
      rw [show (readReply (replies retryCount)).2 = .error e from he] at hreply
      rw [retryLoop, show (downloadSnapshotAttempt syncUrl since (replies retryCount)).2 =
        .error e from he]
      simp only [if_pos hlimit]
      exact .exhausted hreply.symm hlimit (by simp [Effect.quiet])
  | case3 retryCount backoffMs attempt e he hlimit ih =>
      have hreply := readReply_result (γ := γ) (replies retryCount)
      rw [show (readReply (replies retryCount)).2 = .error e from he] at hreply
      rw [retryLoop, show (downloadSnapshotAttempt syncUrl since (replies retryCount)).2 =
        .error e from he]
      simp only [if_neg hlimit]
      -- what stands between two tries is a warning
      have hlogs : ∀ d ∈ [(.warnRetry (retryCount + 1) e backoffMs : Effect γ)],
          d.quiet = true := by simp [Effect.quiet]
      exact .again hreply.symm (by omega) hlogs ih

/-- An attempt is a request, with log lines around it. -/
theorem attemptEffects_eq (retryCount : Nat) :
    ∃ before after : List (Effect γ), (∀ e ∈ before ++ after, e.quiet = true) ∧
      attemptEffects syncUrl since replies retryCount =
        before ++ .get (snapshotUrl syncUrl since) (replies retryCount) :: after :=
  ⟨[_], (readReply (replies retryCount)).1, List.forall_mem_cons.mpr ⟨rfl, readReply_quiet _⟩,
    rfl⟩

variable {syncUrl since replies}

/-- After an attempt the last call is its request. -/
theorem attempt_lastCall (retryCount : Nat) {P : Effect γ → Prop}
    (hP : P (.get (snapshotUrl syncUrl since) (replies retryCount))) :
    LastCall P (h ++ attemptEffects syncUrl since replies retryCount) := by
  obtain ⟨before, after, hquiet, heq⟩ :=
    attemptEffects_eq (γ := γ) syncUrl since replies retryCount
  refine ⟨h ++ before, _, after, ?_, hP, fun e he => hquiet e (List.mem_append_right _ he)⟩
  rw [heq, List.append_assoc]

theorem attempt_keeps_file (f : Option (List UInt8)) (retryCount : Nat) :
    fileAfter f (attemptEffects syncUrl since replies retryCount : List (Effect γ)) = f := by
  obtain ⟨before, after, hquiet, heq⟩ :=
    attemptEffects_eq (γ := γ) syncUrl since replies retryCount
  rw [List.forall_mem_append] at hquiet
  rw [heq, fileAfter_append, fileAfter_of_quiet hquiet.1]
  show fileAfter f after = f
  exact fileAfter_of_quiet hquiet.2

/-- The request of an attempt is allowed, from the timestamp of the file or from 0. -/
theorem attempt_allowed (retryCount : Nat) (hurl : syncUrl ∈ urls)
    (hsince : since = 0 ∨ since = lastSync false ((fileAfter file h).map fileText)) :
    Allowed (May urls file) h
      (attemptEffects syncUrl since replies retryCount : List (Effect γ)) := by
  obtain ⟨before, after, hquiet, heq⟩ :=
    attemptEffects_eq (γ := γ) syncUrl since replies retryCount
  rw [List.forall_mem_append] at hquiet
  rw [heq, allowed_append]
  refine ⟨allowed_of_quiet hquiet.1, ⟨syncUrl, hurl, since, rfl, ?_⟩,
    allowed_of_quiet hquiet.2⟩
  rwa [fileAfter_append, fileAfter_of_quiet hquiet.1]

/-- **ATTEMPTS**: the requests are for the same snapshot, each wait follows a failed
    one, the file is left alone, and the data are those of the last request. -/
theorem attempts_spec {retryCount : Nat} {trace : List (Effect γ)}
    {result : Except (RapidSyncError γ) (List UInt8)} {backoffMs : Nat}
    (hattempts : Attempts syncUrl since replies retryCount backoffMs trace result)
    (hwait : backoffMs = backoff.wait retryCount) (hurl : syncUrl ∈ urls)
    (hsince : since = 0 ∨ since = lastSync false ((fileAfter file h).map fileText)) :
    Allowed (May urls file) h trace ∧
      fileAfter (fileAfter file h) trace = fileAfter file h ∧
      ∀ data, result = .ok data → LastCall (Answered data) (h ++ trace) := by
  induction hattempts generalizing h with
  | succeeds hreply =>
      refine ⟨attempt_allowed _ hurl hsince, attempt_keeps_file _ _, ?_⟩
      rintro data ⟨⟩
      exact attempt_lastCall _ ⟨_, _, rfl, hreply⟩
  | exhausted hreply hlimit hlogs =>
      refine ⟨?_, ?_, fun data hdata => nomatch hdata⟩
      · exact (allowed_append _ _ _).mpr ⟨attempt_allowed _ hurl hsince, allowed_of_quiet hlogs⟩
      · rw [fileAfter_append, attempt_keeps_file, fileAfter_of_quiet hlogs]
  | @again retryCount backoffMs logs trace result hreply hlimit hlogs _ ih =>
      -- the history up to the next attempt, which leaves the file as it is
      have hunanswered : LastCall Unanswered
          (h ++ attemptEffects syncUrl since replies retryCount ++ logs) :=
        (attempt_lastCall retryCount ⟨_, _, rfl, hreply⟩).append hlogs
      have hms : backoffMs = 1000 ∨ backoffMs = 2000 := by
        have hcount : retryCount = 0 ∨ retryCount = 1 := by
          rw [maxRetries] at hlimit
          omega
        rcases hcount with rfl | rfl
        · exact Or.inl hwait
        · exact Or.inr hwait
      have hfile : fileAfter file (h ++ attemptEffects syncUrl since replies retryCount ++ logs ++
          [.sleep backoffMs]) = fileAfter file h := by
        rw [fileAfter_append, fileAfter_append, fileAfter_append, attempt_keeps_file,
          fileAfter_of_quiet hlogs]
        rfl
      obtain ⟨hallowed, hkept, hdata⟩ := ih (h := h ++ attemptEffects syncUrl since replies
        retryCount ++ logs ++ [.sleep backoffMs]) (by rw [hwait, Policy.wait_succ])
        (by rwa [hfile])
      refine ⟨?_, ?_, fun data hok => ?_⟩
      · rw [allowed_append, allowed_append]
        exact ⟨attempt_allowed _ hurl hsince, allowed_of_quiet hlogs, ⟨hunanswered, hms⟩,
          hallowed⟩
      · rw [hfile] at hkept
        rw [fileAfter_append, attempt_keeps_file, fileAfter_append, fileAfter_of_quiet hlogs]
        exact hkept
      · have hlast := hdata data hok
        simpa only [List.append_assoc, List.singleton_append] using hlast

end Attempts

/-! ## A round -/

/-- The bytes of a save, from what is written of it so far. -/
theorem writes_allowed {timestamp : UInt32} {written bytes : List UInt8}
    (hupdated : Since (Updated timestamp) Saving h)
    (hfile : fileAfter file h = some written)
    (hsaved : written ++ bytes <+: savedBytes timestamp) :
    Allowed (May urls file) h (bytes.map .write) := by
  induction bytes generalizing h written with
  | nil => exact trivial
  | cons byte bytes ih =>
      rw [← List.singleton_append, ← List.append_assoc] at hsaved
      have hbyte : written ++ [byte] <+: savedBytes timestamp :=
        (List.prefix_append _ _).trans hsaved
      have hnext : fileAfter file (h ++ [.write byte]) = some (written ++ [byte]) := by
        rw [fileAfter_append, hfile]
        rfl
      exact ⟨⟨timestamp, written, hupdated, hfile, hbyte⟩,
        ih (hupdated.append (by simp [Saving])) hnext hsaved⟩

theorem save_allowed {timestamp : UInt32} (calls : SaveCalls)
    (hupdated : LastCall (Updated timestamp) h) :
    Allowed (May urls file) h (saveEffects calls timestamp).1 := by
  have hbefore : Since (Updated timestamp) Saving h := hupdated.imp fun e he => Or.inl he
  have hsince : Since (Updated timestamp) Saving (h ++ [.create]) :=
    hbefore.append (by simp [Saving])
  have hbytes : ∀ bytes, bytes <+: savedBytes timestamp →
      Allowed (May urls file) h (.create :: bytes.map .write) := by
    intro bytes hsaved
    have hcreated : fileAfter file (h ++ [.create]) = some [] := by
      rw [fileAfter_append]
      rfl
    exact ⟨⟨timestamp, hupdated⟩, writes_allowed hsince hcreated hsaved⟩
  rw [saveEffects]
  split
  · exact trivial
  · cases calls.writeFails with
    | none => exact hbytes _ List.prefix_rfl
    | some n => exact hbytes _ (List.take_prefix _ _)

variable {syncUrl : String} {round : Round γ}

/-- A file that cannot be read counts as 0. -/
theorem lastSync_cases (readFails : Bool) (f : Option (List UInt8)) :
    lastSync readFails (f.map fileText) = 0 ∨
      lastSync readFails (f.map fileText) = lastSync false (f.map fileText) := by
  cases readFails with
  | false => exact Or.inr rfl
  | true =>
      cases f with
      | none => exact Or.inr rfl
      | some content =>
          rw [Option.map_some]
          cases fileText content with
          | notUtf8 => exact Or.inr rfl
          | utf8 text => exact Or.inl rfl

/-- How a round can go, with most log lines left open. -/
inductive RoundRun (syncUrl : String) (f : Option (List UInt8)) (round : Round γ) :
    List (Effect γ) → Except (RapidSyncError γ) UInt32 → Prop where
  | notDownloaded {download : List (Effect γ)} {e : RapidSyncError γ}
      (hattempts : Attempts syncUrl (lastSync round.readFails (f.map fileText)) round.replies 0
        backoff.first download (.error e)) :
      RoundRun syncUrl f round
        (startedLog (lastSync round.readFails (f.map fileText)) :: download) (.error e)
  | notApplied {download : List (Effect γ)} {data : List UInt8} {e : γ}
      (hattempts : Attempts syncUrl (lastSync round.readFails (f.map fileText)) round.replies 0
        backoff.first download (.ok data))
      (hupdate : round.update data = .error e) :
      RoundRun syncUrl f round
        (startedLog (lastSync round.readFails (f.map fileText)) :: download ++
          [downloadedLog data, .update data (.error e)]) (.error (.parseFailed e))
  | applied {download last : List (Effect γ)} {data : List UInt8} {timestamp : UInt32}
      {result : Except (RapidSyncError γ) UInt32}
      (hattempts : Attempts syncUrl (lastSync round.readFails (f.map fileText)) round.replies 0
        backoff.first download (.ok data))
      (hupdate : round.update data = .ok timestamp) (hlast : ∀ e ∈ last, e.quiet = true)
      (hresult : result = if (saveEffects (γ := γ) round.save timestamp).2 then .ok timestamp
        else .error .ioError) :
      RoundRun syncUrl f round
        (startedLog (lastSync round.readFails (f.map fileText)) :: download ++
          [downloadedLog data, .update data (.ok timestamp)] ++
          (saveEffects round.save timestamp).1 ++ last) result

/-- A round is one of the three kinds of runs. -/
theorem syncNetworkGraph_run (syncUrl : String) (round : Round γ) (f : Option (List UInt8)) :
    RoundRun syncUrl f round (syncNetworkGraph syncUrl f round).1
      (syncNetworkGraph syncUrl f round).2 := by
  have hattempts := retryLoop_attempts (γ := γ) syncUrl
    (lastSync round.readFails (f.map fileText)) round.replies 0 backoff.first
  rw [syncNetworkGraph, downloadWithRetry]
  cases hdownload : (retryLoop syncUrl (lastSync round.readFails (f.map fileText))
      round.replies 0 backoff.first : List (Effect γ) × _).2 with
  | error e => exact .notDownloaded (hdownload ▸ hattempts)
  | ok data =>
      rw [hdownload] at hattempts
      simp only
      cases hupdate : round.update data with
      | error e => exact .notApplied hattempts hupdate
      | ok timestamp =>
          simp only
          split
          · rename_i hsaved
            have hlast : ∀ e ∈ [(completedLog timestamp : Effect γ)], e.quiet = true := by
              simp [completedLog, Effect.quiet]
            exact .applied hattempts hupdate hlast (if_pos hsaved).symm
          · rename_i hsaved
            have hrun := RoundRun.applied hattempts hupdate
              (fun _ he => absurd he List.not_mem_nil) (if_neg hsaved).symm
            rwa [List.append_nil] at hrun

/-- What a round does before it knows whether it has the snapshot. -/
theorem download_allowed {download : List (Effect γ)}
    {result : Except (RapidSyncError γ) (List UInt8)} (hurl : syncUrl ∈ urls)
    (hattempts : Attempts syncUrl (lastSync round.readFails ((fileAfter file h).map fileText))
      round.replies 0 backoff.first download result) :
    Allowed (May urls file) h
      (startedLog (lastSync round.readFails ((fileAfter file h).map fileText)) :: download) ∧
    ∀ data, result = .ok data → LastCall (Answered data) (h ++
      startedLog (lastSync round.readFails ((fileAfter file h).map fileText)) :: download) := by
  have hfile : fileAfter file (h ++ [startedLog (lastSync round.readFails
      ((fileAfter file h).map fileText))]) = fileAfter file h := by
    rw [fileAfter_append]
    rfl
  have hsince : ∀ f, f = fileAfter file h →
      lastSync round.readFails ((fileAfter file h).map fileText) = 0 ∨
        lastSync round.readFails ((fileAfter file h).map fileText) =
          lastSync false (f.map fileText) := by
    rintro _ rfl
    exact lastSync_cases _ _
  obtain ⟨hallowed, -, hdata⟩ := attempts_spec hattempts rfl hurl (hsince _ hfile)
  rw [List.append_cons]
  exact ⟨⟨trivial, hallowed⟩, hdata⟩

/-- **ROUND**: each effect of a round is allowed. -/
theorem round_allowed (hurl : syncUrl ∈ urls) :
    Allowed (May urls file) h (syncNetworkGraph syncUrl (fileAfter file h) round).1 := by
  have hrun := syncNetworkGraph_run syncUrl round (fileAfter file h)
  generalize (syncNetworkGraph syncUrl (fileAfter file h) round).1 = trace,
    (syncNetworkGraph syncUrl (fileAfter file h) round).2 = result at hrun
  have hlogged : ∀ data, ∀ e ∈ [(downloadedLog data : Effect γ)], e.quiet = true := by
    simp [downloadedLog, Effect.quiet]
  cases hrun with
  | notDownloaded hattempts => exact (download_allowed hurl hattempts).1
  | @notApplied download data e hattempts hupdate =>
      obtain ⟨hallowed, hdata⟩ := download_allowed hurl hattempts
      rw [allowed_append]
      exact ⟨hallowed, trivial, (hdata data rfl).append (hlogged data), trivial⟩
  | @applied download last data timestamp _ hattempts hupdate hlast _ =>
      obtain ⟨hallowed, hdata⟩ := download_allowed hurl hattempts
      rw [allowed_append, allowed_append, allowed_append]
      refine ⟨⟨⟨hallowed, trivial, (hdata data rfl).append (hlogged data), trivial⟩, ?_⟩,
        allowed_of_quiet hlast⟩
      refine save_allowed round.save ?_
      rw [List.append_cons, ← List.append_assoc, ← List.append_assoc]
      exact since_concat ⟨data, rfl⟩

/-! ## What a round comes to -/

/-- The requests from the `i`-th attempt on, of which `failed` fail. -/
def requests (url : String) (replies : Nat → Reply) : (i failed : Nat) → List (Effect γ)
  | i, 0 => [.get url (replies i)]
  | i, failed + 1 =>
      .get url (replies i) :: .sleep (backoff.wait i) :: requests url replies (i + 1) failed

/-- The calls of a round after the download. -/
def snapshotCalls (round : Round γ) : Option (List UInt8) → List (Effect γ)
  | none => []
  | some data => .update data (round.update data) ::
      match round.update data with
      | .error _ => []
      | .ok timestamp => (saveEffects round.save timestamp).1

/-- What a round returns after the download. -/
def snapshotResult (round : Round γ) :
    Option (List UInt8) → Except (RapidSyncError γ) UInt32
  | none => .error .retryExhausted
  | some data =>
      match round.update data with
      | .error e => .error (.parseFailed e)
      | .ok timestamp =>
          if (saveLastSyncTimestamp round.save timestamp none).2 then .ok timestamp
          else .error .ioError

theorem calls_append (t u : List (Effect γ)) : calls (t ++ u) = calls t ++ calls u :=
  List.filter_append _ _

theorem calls_of_quiet {t : List (Effect γ)} (ht : ∀ e ∈ t, e.quiet = true) : calls t = [] :=
  List.filter_eq_nil_iff.mpr fun e he => by simp [ht e he]

theorem calls_saveEffects (saves : SaveCalls) (timestamp : UInt32) :
    calls (saveEffects saves timestamp : List (Effect γ) × Bool).1 =
      (saveEffects saves timestamp).1 := by
  refine List.filter_eq_self.mpr fun e he => ?_
  rw [saveEffects] at he
  split at he
  · exact absurd he List.not_mem_nil
  · split at he
    all_goals
      rcases List.mem_cons.mp he with rfl | hwrite
      · rfl
      · obtain ⟨byte, -, rfl⟩ := List.mem_map.mp hwrite
        rfl

theorem calls_attempt {since : UInt32} {replies : Nat → Reply} (retryCount : Nat) :
    calls (attemptEffects syncUrl since replies retryCount : List (Effect γ)) =
      [.get (snapshotUrl syncUrl since) (replies retryCount)] := by
  obtain ⟨before, after, hquiet, heq⟩ :=
    attemptEffects_eq (γ := γ) syncUrl since replies retryCount
  rw [List.forall_mem_append] at hquiet
  have hcons : calls (.get (snapshotUrl syncUrl since) (replies retryCount) :: after) =
      (.get (snapshotUrl syncUrl since) (replies retryCount) : Effect γ) :: calls after := rfl
  rw [heq, calls_append, calls_of_quiet hquiet.1, hcons, calls_of_quiet hquiet.2]
  rfl

/-- The calls of the loop up to the attempt where it stops. -/
theorem attempts_calls {since : UInt32} {replies : Nat → Reply} {retryCount backoffMs : Nat}
    {trace : List (Effect γ)} {result : Except (RapidSyncError γ) (List UInt8)}
    (hattempts : Attempts syncUrl since replies retryCount backoffMs trace result)
    (hwait : backoffMs = backoff.wait retryCount) (hcount : retryCount < maxRetries) :
    ∃ failed, retryCount + failed < maxRetries ∧
      (∀ i < failed, wholeBody (replies (retryCount + i)) = none) ∧
      (wholeBody (replies (retryCount + failed)) = none →
        retryCount + failed + 1 = maxRetries) ∧
      calls trace = requests (snapshotUrl syncUrl since) replies retryCount failed ∧
      result = (wholeBody (replies (retryCount + failed))).elim (.error .retryExhausted) .ok := by
  induction hattempts with
  | @succeeds retryCount backoffMs data hreply =>
      refine ⟨0, hcount, fun i hi => absurd hi (by omega), ?_, calls_attempt _, ?_⟩
      · rw [Nat.add_zero, hreply]
        exact nofun
      · rw [Nat.add_zero, hreply]
        rfl
  | @exhausted retryCount backoffMs logs hreply hlimit hlogs =>
      refine ⟨0, hcount, fun i hi => absurd hi (by omega), fun _ => by omega, ?_, ?_⟩
      · rw [calls_append, calls_attempt, calls_of_quiet hlogs]
        rfl
      · rw [Nat.add_zero, hreply]
        rfl
  | @again retryCount backoffMs logs trace result hreply hlimit hlogs _ ih =>
      obtain ⟨failed, hlt, hfailed, hstop, hcalls, hresult⟩ :=
        ih (by rw [hwait, Policy.wait_succ]) hlimit
      -- one more reply has failed, and the wait before the next try is the policy's
      have hnext : retryCount + (failed + 1) = retryCount + 1 + failed := by omega
      refine ⟨failed + 1, by omega, fun i hi => ?_, by rwa [hnext], ?_, by rwa [hnext]⟩
      · cases i with
        | zero => exact hreply
        | succ i =>
            have hi' := hfailed i (by omega)
            rwa [Nat.add_right_comm, Nat.add_assoc] at hi'
      · have hsleep : calls (.sleep backoffMs :: trace) = .sleep backoffMs :: calls trace := rfl
        rw [calls_append, calls_attempt, calls_append, calls_of_quiet hlogs, hsleep, hcalls,
          hwait]
        rfl

/-- **ROUND RESULT**: a round asks until a body arrives whole, at most three times for
    one snapshot, waits 1 s and 2 s in between, hands exactly that body to the graph, and
    saves the timestamp that comes back; each failure is returned as its own error. -/
theorem round_result (syncUrl : String) (f : Option (List UInt8)) (round : Round γ) :
    ∃ last, StopsAt (fun i => wholeBody (round.replies i)) maxRetries last ∧
      calls (syncNetworkGraph syncUrl f round).1 =
        requests (snapshotUrl syncUrl (lastSync round.readFails (f.map fileText)))
          round.replies 0 last ++ snapshotCalls round (wholeBody (round.replies last)) ∧
      (syncNetworkGraph syncUrl f round).2 =
        snapshotResult round (wholeBody (round.replies last)) := by
  have hrun := syncNetworkGraph_run syncUrl round f
  have hstart : ∀ (since : UInt32) (t : List (Effect γ)), calls (startedLog since :: t) = calls t :=
    fun _ _ => rfl
  generalize (syncNetworkGraph syncUrl f round).1 = trace,
    (syncNetworkGraph syncUrl f round).2 = result at hrun
  -- the requests end at the first whole body, or after the last try
  have hstops : ∀ {download : List (Effect γ)} {result},
      Attempts syncUrl (lastSync round.readFails (f.map fileText)) round.replies 0 backoff.first
        download result →
      ∃ last, StopsAt (fun i => wholeBody (round.replies i)) maxRetries last ∧
        calls download = requests (snapshotUrl syncUrl (lastSync round.readFails
          (f.map fileText))) round.replies 0 last ∧
        result = (wholeBody (round.replies last)).elim (.error .retryExhausted) .ok := by
    intro download result hattempts
    obtain ⟨last, hlt, hfailed, hstop, hcalls, hresult⟩ :=
      attempts_calls hattempts rfl (by decide)
    simp only [Nat.zero_add] at hlt hfailed hstop hresult
    exact ⟨last, ⟨hlt, hfailed, hstop⟩, hcalls, hresult⟩
  cases hrun with
  | @notDownloaded download e hattempts =>
      obtain ⟨last, hlast, hcalls, hresult⟩ := hstops hattempts
      cases hbody : wholeBody (round.replies last) with
      | some data => rw [hbody] at hresult; exact nomatch hresult
      | none =>
          rw [hbody] at hresult
          obtain rfl := Except.error.inj hresult
          exact ⟨last, hlast, by rw [hstart, hcalls, hbody]; exact (List.append_nil _).symm,
            by rw [hbody]; rfl⟩
  | @notApplied download data e hattempts hupdate =>
      obtain ⟨last, hlast, hcalls, hresult⟩ := hstops hattempts
      cases hbody : wholeBody (round.replies last) with
      | none => rw [hbody] at hresult; exact nomatch hresult
      | some data' =>
          rw [hbody] at hresult
          obtain rfl := Except.ok.inj hresult
          refine ⟨last, hlast, ?_, ?_⟩
          · rw [calls_append, hstart, hcalls, hbody, snapshotCalls, hupdate]
            rfl
          · rw [hbody, snapshotResult, hupdate]
  | @applied download logs data timestamp result hattempts hupdate hlogs hreturned =>
      obtain ⟨last, hlast, hcalls, hresult⟩ := hstops hattempts
      cases hbody : wholeBody (round.replies last) with
      | none => rw [hbody] at hresult; exact nomatch hresult
      | some data' =>
          rw [hbody] at hresult
          obtain rfl := Except.ok.inj hresult
          refine ⟨last, hlast, ?_, ?_⟩
          · rw [calls_append, calls_append, calls_append, hstart, hcalls, hbody, snapshotCalls,
              hupdate, calls_of_quiet hlogs, calls_saveEffects, List.append_nil,
              List.append_assoc]
            rfl
          · rw [hbody, snapshotResult, hupdate, hreturned]
            simp only
            rw [← saveEffects_file (γ := γ)]

/-! ## Sessions -/

/-- The decimal digits of the timestamp come last in the address, and are read back. -/
theorem snapshotUrl_injective (syncUrl : String) : Function.Injective (snapshotUrl syncUrl) := by
  intro since since' hurl
  have hdigits : printed since = printed since' := by
    have hlists := congrArg String.toList hurl
    rw [snapshotUrl, snapshotUrl, String.toList_append, String.toList_append,
      String.toList_ofList, String.toList_ofList] at hlists
    exact List.append_cancel_left hlists
  rw [← lastSync_printed since, hdigits, lastSync_printed]

/-- Rounds in a row are allowed, whatever each comes to. -/
theorem periodicRounds_allowed (hurl : syncUrl ∈ urls) (rounds : List (Round γ)) :
    Allowed (May urls file) h (periodicRounds syncUrl (fileAfter file h) rounds) := by
  induction rounds generalizing h with
  | nil => exact trivial
  | cons round rounds ih =>
      rw [periodicRounds]
      refine (allowed_append _ _ _).mpr ⟨round_allowed hurl, ?_⟩
      rw [← fileAfter_append]
      exact ih

theorem processRounds_allowed (hurl : syncUrl ∈ urls) (rounds : List (Round γ)) :
    Allowed (May urls file) h (processRounds syncUrl (fileAfter file h) rounds) := by
  cases rounds with
  | nil => exact trivial
  | cons initial rounds =>
      rw [processRounds]
      cases (syncNetworkGraph syncUrl (fileAfter file h) initial).2 with
      | error e => exact round_allowed hurl
      | ok timestamp =>
          refine (allowed_append _ _ _).mpr ⟨round_allowed hurl, ?_⟩
          rw [← fileAfter_append]
          exact periodicRounds_allowed hurl rounds

theorem session_allowed {ps : List (Process γ)} (hurls : ∀ p ∈ ps, p.syncUrl ∈ urls) :
    Allowed (May urls file) h (session (fileAfter file h) ps) := by
  induction ps generalizing h with
  | nil => exact trivial
  | cons p ps ih =>
      rw [session]
      refine (allowed_append _ _ _).mpr ⟨?_, ?_⟩
      · exact allowed_take _ (processRounds_allowed (hurls p List.mem_cons_self) _)
      · rw [← fileAfter_append]
        exact ih fun q hq => hurls q (List.mem_cons_of_mem _ hq)

/-- The file is as it was found, or a part of a timestamp that an update returned. -/
def FileKnown (file : Option (List UInt8)) (h : List (Effect γ)) : Prop :=
  fileAfter file h = file ∨ ∃ data timestamp written,
    .update data (.ok timestamp) ∈ h ∧ fileAfter file h = some written ∧
      written <+: savedBytes timestamp

/-- One effect that is allowed keeps the file known. -/
theorem fileKnown_step {e : Effect γ} (hknown : FileKnown file h) (he : May urls file h e) :
    FileKnown file (h ++ [e]) := by
  have hsame : fileStep (fileAfter file h) e = fileAfter file h → FileKnown file (h ++ [e]) := by
    intro hstep
    have hfile : fileAfter file (h ++ [e]) = fileAfter file h := by
      rw [fileAfter_append]
      exact hstep
    rw [FileKnown, hfile]
    exact hknown.imp_right fun ⟨data, timestamp, written, hmem, hrest⟩ =>
      ⟨data, timestamp, written, List.mem_append_left _ hmem, hrest⟩
  cases e with
  | create =>
      obtain ⟨timestamp, hlast⟩ := he
      obtain ⟨e, hmem, data, rfl⟩ := hlast.mem
      refine Or.inr ⟨data, timestamp, [], List.mem_append_left _ hmem, ?_, List.nil_prefix⟩
      rw [fileAfter_append]
      rfl
  | write byte =>
      obtain ⟨timestamp, written, hlast, hfile, hsaved⟩ := he
      obtain ⟨e, hmem, data, rfl⟩ := hlast.mem
      refine Or.inr ⟨data, timestamp, _, List.mem_append_left _ hmem, ?_, hsaved⟩
      rw [fileAfter_append, hfile]
      rfl
  | _ => exact hsame rfl

/-- A known file never gives a timestamp that no update has returned. -/
theorem fileKnown_covered (hknown : FileKnown file h) :
    Covered file h (lastSync false ((fileAfter file h).map fileText)) := by
  rcases hknown with hfile | ⟨data, timestamp, written, hmem, hfile, hsaved⟩
  · rw [hfile]
    exact Or.inl (UInt32.le_refl _)
  · refine Or.inr ⟨data, timestamp, hmem, ?_⟩
    rw [hfile, Option.map_some, List.prefix_iff_eq_take.mp hsaved, fileText_take]
    exact lastSync_torn false timestamp _

/-- What holds of each effect of a session. -/
structure Sound (urls : List String) (file : Option (List UInt8))
    (before : List (Effect γ)) (e : Effect γ) : Prop where
  asks : ∀ url reply, e = .get url reply → ∃ syncUrl ∈ urls, ∃ since,
    url = snapshotUrl syncUrl since ∧ Covered file before since ∧
    (since = 0 ∨ since = lastSync false ((fileAfter file before).map fileText))
  waits : ∀ ms, e = .sleep ms → LastCall Unanswered before ∧ (ms = 1000 ∨ ms = 2000)
  updates : ∀ data result, e = .update data result → LastCall (Answered data) before
  creates : e = .create → ∃ timestamp, LastCall (Updated timestamp) before
  writes : ∀ byte, e = .write byte → ∃ timestamp written,
    Since (Updated timestamp) Saving before ∧ fileAfter file before = some written ∧
    written ++ [byte] <+: savedBytes timestamp

/-- **SESSION SOUND**: over any processes, with any answers of the server, any results of
    the calls and any moment of death, a request is from the timestamp that the file
    holds, or from 0, and never from one later than what was applied; the graph is given
    the whole body of the last request and nothing else; and only the timestamp of the
    last update goes to the file.  The address asked for tells which timestamp that was. -/
theorem session_sound (file : Option (List UInt8)) (ps : List (Process γ)) :
    (∀ syncUrl, Function.Injective (snapshotUrl syncUrl)) ∧
      ∀ before e after, session file ps = before ++ e :: after →
        Sound (ps.map Process.syncUrl) file before e := by
  refine ⟨snapshotUrl_injective, fun before e after hsplit => ?_⟩
  have hallowed : Allowed (May (ps.map Process.syncUrl) file) [] (session file ps) :=
    session_allowed (h := []) fun p hp => List.mem_map_of_mem hp
  have hmay : May (ps.map Process.syncUrl) file before e := allowed_split hallowed hsplit
  have hbefore : Allowed (May (ps.map Process.syncUrl) file) [] before := by
    rw [hsplit] at hallowed
    exact ((allowed_append _ _ _).mp hallowed).1
  have hknown : FileKnown file before := by
    have := history_invariant (I := FileKnown file) (fun h e => fileKnown_step)
      (h := []) (Or.inl rfl) hbefore
    rwa [List.nil_append] at this
  refine ⟨?_, ?_, ?_, ?_, ?_⟩
  · rintro url reply rfl
    obtain ⟨syncUrl, hurl, since, hquery, hsince⟩ := hmay
    refine ⟨syncUrl, hurl, since, hquery, ?_, hsince⟩
    rcases hsince with rfl | rfl
    · exact Or.inl UInt32.zero_le
    · exact fileKnown_covered hknown
  · rintro ms rfl
    exact hmay
  · rintro data result rfl
    exact hmay
  · rintro rfl
    exact hmay
  · rintro byte rfl
    exact hmay

/-- A first process whose first request is lost. -/
def firstProcess : Process Unit where
  syncUrl := "https://rapidsync/"
  rounds := [{
    readFails := false
    replies := fun i =>
      if i = 0 then .sendFails "timed out" else .response 200 "200 OK" none [.ok [1], .ok [2]]
    update := fun _ => .ok 7
    save := ⟨false, none, false⟩ }]
  lives := 14

/-- The body of the second attempt is applied. -/
theorem session_sound_firstProcess :
    ∃ before after, session none [firstProcess] = before ++ .update [1, 2] (.ok 7) :: after ∧
      Sound ["https://rapidsync/"] none before (.update [1, 2] (.ok 7)) := by
  have hsession : session none [firstProcess] =
      (session none [firstProcess]).take 9 ++ .update [1, 2] (.ok 7) ::
        (session none [firstProcess]).drop 10 := by
    simp [session, Process.trace, processRounds, periodicRounds, syncNetworkGraph,
      downloadWithRetry, retryLoop, firstProcess, downloadSnapshotAttempt, readReply, maxRetries,
      isSuccess, readChunks, saveEffects]
  exact ⟨_, _, hsession, (session_sound none [firstProcess]).2 _ _ _ hsession⟩

end SnapshotDownload
