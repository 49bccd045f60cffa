import Mathlib.Data.List.Forall2
import Mathlib.Data.List.Infix

/-! # Writing to a file through a buffer

    A writer collects what it is given in a buffer and hands it to an append-only file
    when the buffer has no room left, or when it is flushed.  The file may fail after
    some of what it is offered; the writer keeps the rest and can be used again.

    * `flushBuf`, `writeAll`: what is appended to the file, what is left in the buffer
      and whether the call succeeds;
    * `Kept`: what becomes of one write;
    * `Gathered`, `LeftAt`: what a file has gained while it was written to, and after
      its writer is gone. -/

namespace BufferedWriter

variable {α : Type} {capacity : Nat}

/-- A buffer of a capacity. -/
structure Writer (α : Type) (capacity : Nat) where
  buffer : List α
  fits   : buffer.length ≤ capacity

/-- What a call appends to the file, the writer after it, and whether it succeeds. -/
structure Outcome (α : Type) (capacity : Nat) where
  appended : List α
  writer   : Writer α capacity
  ok       : Bool

namespace Writer

/-- `BufWriter::new`. -/
def empty : Writer α capacity := ⟨[], Nat.zero_le _⟩

/-- The room that is left. -/
def spare (w : Writer α capacity) : Nat := capacity - w.buffer.length

/-- Bytes that fit go into the buffer. -/
def push (w : Writer α capacity) (bytes : List α) (h : bytes.length ≤ w.spare) :
    Writer α capacity :=
  ⟨w.buffer ++ bytes, by have := w.fits; rw [spare] at h; rw [List.length_append]; omega⟩

end Writer

/-- How much of an offer the file takes: all of it, or so much before an error. -/
def takes (fails : Option Nat) (bytes : List α) : Nat :=
  match fails with
  | none => bytes.length
  | some n => min n bytes.length

/-- The buffer is handed over; what the file does not take stays in it. -/
def flushBuf (fails : Option Nat) (w : Writer α capacity) : Outcome α capacity :=
  ⟨w.buffer.take (takes fails w.buffer),
    ⟨w.buffer.drop (takes fails w.buffer),
      (List.drop_sublist _ _).length_le.trans w.fits⟩,
    takes fails w.buffer == w.buffer.length⟩

/-- A flush that succeeds empties the buffer. -/
theorem flushBuf_buffer {fails : Option Nat} {w : Writer α capacity}
    (h : (flushBuf fails w).ok = true) : (flushBuf fails w).writer.buffer = [] :=
  List.drop_eq_nil_of_le (Nat.le_of_eq (beq_iff_eq.mp h).symm)

theorem flushBuf_spare {fails : Option Nat} {w : Writer α capacity}
    (h : (flushBuf fails w).ok = true) : (flushBuf fails w).writer.spare = capacity := by
  rw [Writer.spare, flushBuf_buffer h]
  rfl

/-- What is too long for any buffer goes to the file past it. -/
def writeDirect (direct : Option Nat) (bytes : List α) (w : Writer α capacity) :
    Outcome α capacity :=
  ⟨bytes.take (takes direct bytes), w, takes direct bytes == bytes.length⟩

/-- A write.  Where there is no room the buffer is flushed first, and where that fails the
    write is given up. -/
def writeAll (full direct : Option Nat) (bytes : List α) (w : Writer α capacity) :
    Outcome α capacity :=
  if hroom : bytes.length ≤ w.spare then
    if capacity ≤ bytes.length then writeDirect direct bytes w
    else ⟨[], w.push bytes hroom, true⟩
  else if hok : (flushBuf full w).ok = true then
    if hlong : capacity ≤ bytes.length then
      let out := writeDirect direct bytes (flushBuf full w).writer
      { out with appended := (flushBuf full w).appended ++ out.appended }
    else
      ⟨(flushBuf full w).appended, (flushBuf full w).writer.push bytes
        (by rw [flushBuf_spare hok]; exact Nat.le_of_not_le hlong), true⟩
  else flushBuf full w

/-- What a writer makes of a write: all of it, nothing, or a beginning of one that is too
    long for the buffer. -/
def Kept (capacity : Nat) (bytes piece : List α) : Prop :=
  piece = bytes ∨ piece = [] ∨ (capacity ≤ bytes.length ∧ piece <+: bytes)

/-- What a flush leaves in the buffer is what it did not write. -/
theorem flushBuf_total (fails : Option Nat) (w : Writer α capacity) :
    (flushBuf fails w).appended ++ (flushBuf fails w).writer.buffer = w.buffer :=
  List.take_append_drop _ _

/-- Long bytes go past the buffer, or are cut where the call stops. -/
theorem writeDirect_kept (direct : Option Nat) {bytes : List α} (w : Writer α capacity)
    (hlong : capacity ≤ bytes.length) :
    Kept capacity bytes (writeDirect direct bytes w).appended :=
  Or.inr (Or.inr ⟨hlong, List.take_prefix _ _⟩)

/-- A write that is longer than any buffer finds the buffer empty where there is room. -/
theorem buffer_nil {bytes : List α} {w : Writer α capacity} (hroom : bytes.length ≤ w.spare)
    (hlong : capacity ≤ bytes.length) : w.buffer = [] := by
  have hfits := w.fits
  rw [Writer.spare] at hroom
  exact List.length_eq_zero_iff.mp (by omega)

/-- **WRITE**: the file and the buffer together grow by what is kept of the write. -/
theorem writeAll_kept (full direct : Option Nat) (bytes : List α) (w : Writer α capacity) :
    ∃ piece, Kept capacity bytes piece ∧
      (writeAll full direct bytes w).appended ++ (writeAll full direct bytes w).writer.buffer =
        w.buffer ++ piece := by
  rw [writeAll]
  split
  · rename_i hroom
    split
    · rename_i hlong
      refine ⟨_, writeDirect_kept direct w hlong, ?_⟩
      rw [buffer_nil hroom hlong, List.nil_append]
      exact (congrArg _ (buffer_nil hroom hlong)).trans (List.append_nil _)
    · exact ⟨bytes, Or.inl rfl, rfl⟩
  · split
    · rename_i hok
      -- the buffer made room by its flush, and what it had is in the file
      have hflushed : (flushBuf full w).appended = w.buffer := by
        rw [← flushBuf_total full w, flushBuf_buffer hok, List.append_nil]
      split
      · rename_i hlong
        refine ⟨_, writeDirect_kept direct (flushBuf full w).writer hlong, ?_⟩
        show ((flushBuf full w).appended ++ _) ++ (flushBuf full w).writer.buffer = _
        rw [hflushed, flushBuf_buffer hok, List.append_nil]
      · refine ⟨bytes, Or.inl rfl, ?_⟩
        show (flushBuf full w).appended ++ ((flushBuf full w).writer.buffer ++ bytes) = _
        rw [hflushed, flushBuf_buffer hok, List.nil_append]
    · refine ⟨[], Or.inr (Or.inl rfl), ?_⟩
      rw [flushBuf_total, List.append_nil]

/-- A file that held `base` before a writer was opened on it, and the writes since. -/
def Gathered (base file : List α) (w : Writer α capacity) (writes : List (List α)) : Prop :=
  ∃ pieces, List.Forall₂ (Kept capacity) writes pieces ∧
    file ++ w.buffer = base ++ pieces.flatten ∧ base <+: file

/-- What a file has gained from the writes of a writer that is gone: only the end of what
    was kept of them can be missing. -/
def LeftAt (capacity : Nat) (writes : List (List α)) (text : List α) : Prop :=
  ∃ pieces, List.Forall₂ (Kept capacity) writes pieces ∧ text <+: pieces.flatten

variable {base file : List α} {w : Writer α capacity} {writes : List (List α)}

/-- A file that was just opened has what it had. -/
theorem Gathered.opened : Gathered base base (Writer.empty : Writer α capacity) [] :=
  ⟨[], .nil, rfl, List.prefix_rfl⟩

/-- A write adds its bytes to what is gathered, or a part of them that it kept. -/
theorem Gathered.write (h : Gathered base file w writes) (full direct : Option Nat)
    (bytes : List α) :
    Gathered base (file ++ (writeAll full direct bytes w).appended)
      (writeAll full direct bytes w).writer (writes ++ [bytes]) := by
  obtain ⟨pieces, hkept, htotal, hbase⟩ := h
  obtain ⟨piece, hpiece, hout⟩ := writeAll_kept full direct bytes w
  refine ⟨pieces ++ [piece], List.rel_append hkept (.cons hpiece .nil), ?_,
    hbase.trans (List.prefix_append _ _)⟩
  rw [List.append_assoc, hout, ← List.append_assoc, htotal, List.flatten_append,
    List.flatten_singleton, List.append_assoc]

/-- A flush moves bytes from the buffer to the file. -/
theorem Gathered.flush (h : Gathered base file w writes) (fails : Option Nat) :
    Gathered base (file ++ (flushBuf fails w).appended) (flushBuf fails w).writer writes := by
  obtain ⟨pieces, hkept, htotal, hbase⟩ := h
  refine ⟨pieces, hkept, ?_, hbase.trans (List.prefix_append _ _)⟩
  rw [List.append_assoc, flushBuf_total, htotal]

/-- **LEFT**: whatever is in the buffer is lost with the writer. -/
theorem Gathered.left (h : Gathered base file w writes) :
    ∃ text, LeftAt capacity writes text ∧ file = base ++ text := by
  obtain ⟨pieces, hkept, htotal, text, rfl⟩ := h
  refine ⟨text, ⟨pieces, hkept, w.buffer, ?_⟩, rfl⟩
  exact List.append_cancel_left ((List.append_assoc _ _ _).symm.trans htotal)

end BufferedWriter
