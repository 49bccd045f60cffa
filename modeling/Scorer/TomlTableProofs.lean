import Mathlib

/-! # Reading records out of TOML tables

    A derived deserialiser reads each field of a record from the entry with its name.
    A missing field takes its default, when it has one, and an entry that names no
    field is an error.  A section is a field whose value is itself a table.

    * `required`, `defaulted`, `optional`: the three kinds of fields;
    * `setField`: a table with one entry replaced, or left out;
    * `lookup_setField_other`: the other fields are read as before. -/

namespace TomlTable

/-- The values of a configuration file, as far as its fields have them. -/
inductive Toml where
  | string (content : String)
  | integer (value : Int)
  | boolean (value : Bool)
  | array (items : List Toml)
  | table (entries : List (String × Toml))
  /-- floats and dates, which no field here takes -/
  | other

/-- The entries of a table, the first one of a name being the one that counts. -/
abbrev Table := List (String × Toml)

variable {α : Type}

/-! ## Values -/

/-- A field of type `String`. -/
def asString : Toml → Option String
  | .string content => some content
  | _ => none

/-- A field of type `bool`. -/
def asBool : Toml → Option Bool
  | .boolean value => some value
  | _ => none

/-- An unsigned integer of `bits` bits. -/
def asUnsigned (bits : Nat) : Toml → Option Nat
  | .integer value => if 0 ≤ value ∧ value < 2 ^ bits then some value.toNat else none
  | _ => none

/-- A field of type `u16`. -/
def asU16 (v : Toml) : Option UInt16 := (asUnsigned 16 v).map UInt16.ofNat

/-- A field of type `u64`. -/
def asU64 (v : Toml) : Option UInt64 := (asUnsigned 64 v).map UInt64.ofNat

/-- A field of type `Vec<_>`; one bad item refuses the whole. -/
def asList (item : Toml → Option α) : Toml → Option (List α)
  | .array items => items.mapM item
  | _ => none

/-- A record: a table with no entry besides the named fields. -/
def asRecord (fields : List String) (record : Table → Option α) : Toml → Option α
  | .table entries =>
      if entries.all fun entry => fields.contains entry.1 then record entries else none
  | _ => none

/-! ## Fields -/

section Fields

variable (name : String) (read : Toml → Option α) (t : Table)

/-- A field without a serde attribute. -/
def required : Option α := (t.lookup name).bind read

/-- `#[serde(default)]`: the default stands for a missing field, not for a bad one. -/
def defaulted (default : α) : Option α :=
  match t.lookup name with
  | some v => read v
  | none => some default

/-- A field of type `Option`. -/
def optional : Option (Option α) :=
  match t.lookup name with
  | some v => (read v).map some
  | none => some none

end Fields

/-! ## Replacing one entry -/

/-- The table with `v` as the entry of the name, or without one. -/
def setField (name : String) (v : Option Toml) (t : Table) : Table :=
  (v.map fun v => (name, v)).toList ++ t.filter fun entry => entry.1 ≠ name

variable {name other : String} {v : Option Toml} {t : Table}

/-- A look-up does not see the entries of another name. -/
private theorem lookup_filter (t : Table) (name other : String) :
    (t.filter fun entry => entry.1 ≠ name).lookup other =
      if other = name then none else t.lookup other := by
  induction t with
  | nil => exact (ite_self none).symm
  | cons entry t ih =>
      obtain ⟨key, value⟩ := entry
      by_cases hk : key = name
      · rw [List.filter_cons_of_neg (by simpa using hk), ih]
        by_cases ho : other = name
        · rw [if_pos ho, if_pos ho]
        · have hne : (other == key) = false := by
            rw [hk]
            exact beq_eq_false_iff_ne.mpr ho
          rw [if_neg ho, if_neg ho, List.lookup_cons, hne]
      · rw [List.filter_cons_of_pos (by simpa using hk), List.lookup_cons, List.lookup_cons, ih]
        by_cases ho : other = key
        · have hname : other ≠ name := fun h => hk (ho.symm.trans h)
          simp only [if_neg hname]
        · have hne : (other == key) = false := beq_eq_false_iff_ne.mpr ho
          rw [hne]

/-- Setting one field leaves the look-ups of the others. -/
theorem lookup_setField_other (h : other ≠ name) :
    (setField name v t).lookup other = t.lookup other := by
  have hrest := (lookup_filter t name other).trans (if_neg h)
  cases v with
  | none => exact hrest
  | some v =>
      have hne : (other == name) = false := beq_eq_false_iff_ne.mpr h
      show List.lookup other ((name, v) :: _) = _
      rw [List.lookup_cons, hne]
      exact hrest

/-- The field that was set is looked up. -/
theorem lookup_setField_self : (setField name v t).lookup name = v := by
  cases v with
  | none => exact (lookup_filter t name name).trans (if_pos rfl)
  | some v =>
      show List.lookup name ((name, v) :: _) = _
      rw [List.lookup_cons, beq_self_eq_true]

section Reads

variable {read : Toml → Option α} {default : α}

/-- A required field does not notice that another one is set. -/
theorem required_setField (h : other ≠ name) :
    required other read (setField name v t) = required other read t := by
  rw [required, lookup_setField_other h, required]

theorem defaulted_setField (h : other ≠ name) :
    defaulted other read (setField name v t) default = defaulted other read t default := by
  rw [defaulted, lookup_setField_other h, defaulted]

theorem optional_setField (h : other ≠ name) :
    optional other read (setField name v t) = optional other read t := by
  rw [optional, lookup_setField_other h, optional]

/-- A field with a default that was set, or left out. -/
theorem defaulted_setField_self :
    defaulted name read (setField name v t) default =
      match v with
      | some v => read v
      | none => some default := by
  rw [defaulted, lookup_setField_self]

/-- An optional field that was set, or left out. -/
theorem optional_setField_self :
    optional name read (setField name v t) =
      match v with
      | some v => (read v).map some
      | none => some none := by
  rw [optional, lookup_setField_self]

end Reads

/-- A field may be set or left out of a record that is accepted. -/
theorem fields_setField {fields : List String} (hname : name ∈ fields)
    (h : (t.all fun entry => fields.contains entry.1) = true) :
    ((setField name v t).all fun entry => fields.contains entry.1) = true := by
  rw [setField, List.all_append, Bool.and_eq_true]
  constructor
  · cases v with
    | none => rfl
    | some v => simpa using hname
  · exact List.all_eq_true.mpr fun entry he =>
      List.all_eq_true.mp h entry (List.mem_filter.mp he).1

end TomlTable
