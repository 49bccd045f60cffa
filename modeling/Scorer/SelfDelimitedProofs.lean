import Mathlib.Data.List.Infix

/-! # Sequences of self-delimiting codes

    `read` takes one code off the front of a list and returns its value with what
    is left, or `none`.  Reading goes on until `read` gives `none`, at the end of
    the list or at the first place that is no code.

    * `Steps read bytes ds rest`: successive reads of `bytes` give `ds` and leave
      `rest`;
    * `steps_append`: what is read does not depend on what follows it;
    * `steps_front`: two readings of one list agree, and of a prefix of a list
      that reads to its end only values of that list can be read;
    * `scan`: all that can be read. -/

namespace SelfDelimited

variable {β δ : Type} {read : List β → Option (δ × List β)}
  {bytes rest more mid : List β} {ds es : List δ}

/-- A read that succeeds does not look at what follows the code. -/
def SelfDelimiting (read : List β → Option (δ × List β)) : Prop :=
  ∀ bytes d rest more, read bytes = some (d, rest) → read (bytes ++ more) = some (d, rest ++ more)

/-- A code takes at least one item. -/
def Consuming (read : List β → Option (δ × List β)) : Prop :=
  ∀ bytes d rest, read bytes = some (d, rest) → ∃ used, used ≠ [] ∧ bytes = used ++ rest

/-- Successive reads give `ds` and leave `rest`. -/
inductive Steps (read : List β → Option (δ × List β)) : List β → List δ → List β → Prop where
  | stop (bytes : List β) : Steps read bytes [] bytes
  | next {bytes mid rest : List β} {d : δ} {ds : List δ} (hread : read bytes = some (d, mid))
      (hrest : Steps read mid ds rest) : Steps read bytes (d :: ds) rest

/-- The list is a sequence of codes, with nothing left over. -/
def Whole (read : List β → Option (δ × List β)) (bytes : List β) (ds : List δ) : Prop :=
  Steps read bytes ds []

/-- There is nothing to read in nothing. -/
theorem Consuming.nil (hread : Consuming read) : read [] = none := by
  cases h : read [] with
  | none => rfl
  | some out =>
      obtain ⟨used, hne, hnil⟩ := hread [] out.1 out.2 h
      exact absurd (List.append_eq_nil_iff.mp hnil.symm).1 hne

theorem Steps.trans (h : Steps read bytes ds mid) (h' : Steps read mid es rest) :
    Steps read bytes (ds ++ es) rest := by
  induction h with
  | stop bytes => exact h'
  | next hread _ ih => exact .next hread (ih h')

/-- **LOCALITY**: what is read does not depend on what follows. -/
theorem steps_append (hself : SelfDelimiting read) (h : Steps read bytes ds rest)
    (more : List β) : Steps read (bytes ++ more) ds (rest ++ more) := by
  induction h with
  | stop bytes => exact .stop _
  | next hread _ ih => exact .next (hself _ _ _ more hread) ih

/-- A sequence of codes before others is read first. -/
theorem Whole.append (hself : SelfDelimiting read) (h : Whole read bytes ds)
    (h' : Steps read more es rest) : Steps read (bytes ++ more) (ds ++ es) rest :=
  (steps_append hself h more).trans h'

/-- **DETERMINISM**: a reading that has come to its end is as long as any other. -/
theorem steps_front {rest' : List β} (h : Steps read bytes ds rest)
    (h' : Steps read bytes es rest') (hend : read rest' = none) : ds <+: es := by
  induction h generalizing es with
  | stop bytes => exact List.nil_prefix
  | next hread _ ih =>
      cases h' with
      | stop => cases hread.symm.trans hend
      | next hread' hrest' =>
          obtain ⟨rfl, rfl⟩ := Prod.mk.inj (Option.some.inj (hread.symm.trans hread'))
          exact (List.prefix_cons_inj _).mpr (ih hrest')

/-- Of a prefix of a whole sequence only its first values can be read. -/
theorem Whole.of_front (hself : SelfDelimiting read) (hconsume : Consuming read)
    {front : List β} (hfront : front <+: bytes) (h : Whole read bytes ds)
    (h' : Steps read front es rest) : es <+: ds := by
  obtain ⟨more, rfl⟩ := hfront
  exact steps_front (steps_append hself h' more) h hconsume.nil

/-! ## Reading as far as possible -/

/-- The values can be read, and no other reading goes on beyond them or differs. -/
def Longest (read : List β → Option (δ × List β)) (bytes : List β) (ds : List δ) : Prop :=
  (∃ rest, Steps read bytes ds rest) ∧ ∀ es rest, Steps read bytes es rest → es <+: ds

/-- The values up to the first place that is no code; every code takes an item, so
    the length of the list is fuel enough. -/
def scanFuel (read : List β → Option (δ × List β)) : Nat → List β → List δ
  | 0, _ => []
  | fuel + 1, bytes =>
      match read bytes with
      | none => []
      | some (d, rest) => d :: scanFuel read fuel rest

/-- The scan; its fuel is the length, and more than it can use. -/
def scan (read : List β → Option (δ × List β)) (bytes : List β) : List δ :=
  scanFuel read (bytes.length + 1) bytes

/-- A scan is the longest reading. -/
theorem scanFuel_steps (hconsume : Consuming read) {fuel : Nat}
    (hfuel : bytes.length < fuel) :
    ∃ rest, Steps read bytes (scanFuel read fuel bytes) rest ∧ read rest = none := by
  induction fuel generalizing bytes with
  | zero => omega
  | succ fuel ih =>
      rw [scanFuel]
      cases hread : read bytes with
      | none => exact ⟨bytes, .stop bytes, hread⟩
      | some out =>
          obtain ⟨d, mid⟩ := out
          obtain ⟨used, hne, rfl⟩ := hconsume _ d mid hread
          have hpos := List.length_pos_iff.mpr hne
          rw [List.length_append] at hfuel
          obtain ⟨rest, hsteps, hend⟩ := ih (show mid.length < fuel by omega)
          exact ⟨rest, .next hread hsteps, hend⟩

theorem scan_steps (hconsume : Consuming read) (bytes : List β) :
    ∃ rest, Steps read bytes (scan read bytes) rest ∧ read rest = none :=
  scanFuel_steps hconsume (Nat.lt_succ_self _)

/-- Steps to where it stops are its steps. -/
theorem scan_of_steps (hconsume : Consuming read) (h : Steps read bytes ds rest)
    (hend : read rest = none) : scan read bytes = ds := by
  obtain ⟨rest', hscan, hend'⟩ := scan_steps hconsume bytes
  exact (steps_front hscan h hend).eq_of_length_le
    (steps_front h hscan hend').length_le

/-- A text of whole items is scanned to its end. -/
theorem scan_of_whole (hconsume : Consuming read) (h : Whole read bytes ds) :
    scan read bytes = ds :=
  scan_of_steps hconsume h hconsume.nil

theorem scan_stop (hread : read bytes = none) : scan read bytes = [] := by
  rw [scan, scanFuel, hread]

theorem scan_next (hconsume : Consuming read) {d : δ} (hread : read bytes = some (d, rest)) :
    scan read bytes = d :: scan read rest := by
  obtain ⟨last, hsteps, hend⟩ := scan_steps hconsume rest
  exact scan_of_steps hconsume (.next hread hsteps) hend

/-- Whatever can be read is in the scan. -/
theorem prefix_scan (hconsume : Consuming read) (h : Steps read bytes ds rest) :
    ds <+: scan read bytes := by
  obtain ⟨rest', hscan, hend⟩ := scan_steps hconsume bytes
  exact steps_front h hscan hend

/-- **THE LONGEST**: the scan gives the longest sequence that the text begins with. -/
theorem longest_scan (hconsume : Consuming read) (bytes : List β) :
    Longest read bytes (scan read bytes) := by
  obtain ⟨rest, hsteps, -⟩ := scan_steps hconsume bytes
  exact ⟨⟨rest, hsteps⟩, fun _ _ h => prefix_scan hconsume h⟩

end SelfDelimited
