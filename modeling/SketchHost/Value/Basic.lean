/-
**Plain data.**

The values that travel in messages, configuration files and settings: null, truth values, whole and
binary64 numbers, texts, lists, and records whose fields keep the order they were written in.  Whole
numbers are of any size, those that are too long to be written out included.

* `Value` — a value;
* `Value.field?`, `Fields.set` — reading and writing a field of a record;
* `Value.isBlank` — the values that stand for "nothing given".
-/

import SketchHost.Decimal.Shortest

set_option relaxedAutoImplicit false
set_option autoImplicit false

namespace SketchHost

/-- A plain value. -/
inductive Value where
  | null
  | bool (b : Bool)
  | int (n : Int)
  | float (x : Float)
  | text (s : String)
  | list (items : List Value)
  | record (fields : List (String × Value))
deriving Inhabited

/-- The fields of a record, in order, with unique names. -/
abbrev Fields := List (String × Value)

namespace Fields

/-- The value under `key`. -/
def find? (key : String) : Fields → Option Value
  | [] => none
  | (k, v) :: rest => if k == key then some v else find? key rest

/-- The fields with `key` set to `v`: in its place if it is there, else at the end. -/
def set (key : String) (v : Value) : Fields → Fields
  | [] => [(key, v)]
  | (k, w) :: rest => if k == key then (k, v) :: rest else (k, w) :: set key v rest

@[simp] theorem find?_nil (key : String) : find? key [] = none := rfl

/-- A field that was set is found. -/
@[simp] theorem find?_set_self (key : String) (v : Value) (fields : Fields) :
    find? key (set key v fields) = some v := by
  induction fields with
  | nil => simp [set, find?]
  | cons field rest ih =>
      obtain ⟨k, w⟩ := field
      by_cases h : k = key
      · simp [set, find?, h]
      · simp [set, find?, h, ih]

/-- Setting one field leaves the others as they were. -/
theorem find?_set_of_ne {key other : String} (h : other ≠ key) (v : Value) (fields : Fields) :
    find? other (set key v fields) = find? other fields := by
  induction fields with
  | nil => simp [set, find?, Ne.symm h]
  | cons field rest ih =>
      obtain ⟨k, w⟩ := field
      by_cases hk : k = key
      · subst hk; simp [set, find?, Ne.symm h]
      · by_cases ho : k = other
        · simp [set, find?, ho, h]
        · simp [set, find?, hk, ho, ih]

/-- The names of the fields. -/
def keys (fields : Fields) : List String :=
  fields.map (·.1)

/-- Fields from a list in which a name may come twice: the first place and the last value count. -/
def ofList (pairs : List (String × Value)) : Fields :=
  pairs.foldl (fun fields p => set p.1 p.2 fields) []

end Fields

namespace Value

/-- The fields of a record. -/
def fields? : Value → Option Fields
  | record fields => some fields
  | _ => none

/-- The value of a field, if this is a record that has it. -/
def field? (key : String) (v : Value) : Option Value :=
  v.fields?.bind (Fields.find? key)

/-- The text of a text value. -/
def text? : Value → Option String
  | text s => some s
  | _ => none

/-- The items of a list. -/
def items? : Value → Option (List Value)
  | list items => some items
  | _ => none

/-- Null, false, zero, and what is empty: the values that stand for "nothing given". -/
def isBlank : Value → Bool
  | null => true
  | bool b => !b
  | int n => n == 0
  | float x => x == 0.0
  | text s => s.isEmpty
  | list items => items.isEmpty
  | record fields => fields.isEmpty

/-- The value, or `other` if it stands for "nothing given". -/
def orElse (v other : Value) : Value :=
  if v.isBlank then other else v

end Value

/-- How binary64 numbers are written: positionally from `0.0001` up to sixteen digits before the
point, and else with an exponent of at least two digits. -/
def Value.numberStyle : Decimal.Style := ⟨-3, 16, 2⟩

end SketchHost
