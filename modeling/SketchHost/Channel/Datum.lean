/-
**The data of a message.**

What a frame sends are mostly plain data, but objects may stand among them that refuse to be copied.  A
handler never gets the data themselves.  It gets a deep copy, and where there is none it gets what comes
back when the data are written in JSON and read again.  Some objects cannot be written either, and no more
can a whole number that is too long.  Data may be nested to any depth.

* `Datum` — data, plain or not;
* `Datum.ofValue` — plain data;
* `Datum.fields?`, `Datum.text?`, `Datum.textAt?` — what can be read off data as they are;
* `Datum.copy?` — a deep copy;
* `Datum.image` — what the data look like in JSON, or why they cannot be written;
* `Datum.clone` — the one or the other.
-/

import SketchHost.Value.Shown

set_option relaxedAutoImplicit false
set_option autoImplicit false

namespace SketchHost

/-- The data of a message: plain data, with objects among them. -/
inductive Datum where
  | null
  | bool (b : Bool)
  | int (n : Int)
  | float (x : Float)
  | text (s : String)
  | list (items : List Datum)
  | record (fields : List (String × Datum))
  /-- Data of their own kind that refuse to be copied; in JSON they look as others do. -/
  | guarded (data : Datum)
  /-- An object of a sort that can neither be copied nor written in JSON. -/
  | object (sort : String)
deriving Inhabited

namespace Datum

/-- Plain data. -/
def ofValue : Value → Datum
  | .null => null
  | .bool b => bool b
  | .int n => int n
  | .float x => float x
  | .text s => text s
  | .list items => list (ofItems items)
  | .record fields => record (ofFields fields)
where
  /-- The items of a list. -/
  ofItems : List Value → List Datum
    | [] => []
    | v :: rest => ofValue v :: ofItems rest
  /-- The fields of a record. -/
  ofFields : List (String × Value) → List (String × Datum)
    | [] => []
    | (k, v) :: rest => (k, ofValue v) :: ofFields rest

/-! ### Reading -/

/-- The fields of a record. -/
def fields? : Datum → Option (List (String × Datum))
  | record fields => some fields
  | guarded d => d.fields?
  | _ => none

/-- The text of a text. -/
def text? : Datum → Option String
  | text s => some s
  | guarded d => d.text?
  | _ => none

/-- The text under a key, if this is a record that has one there. -/
def textAt? (key : String) (d : Datum) : Option String :=
  (d.fields?.bind (List.lookup key)).bind text?

/-! ### Copies -/

/-- A deep copy; there is none if anything in the data refuses it. -/
def copy? : Datum → Option Value
  | null => some .null
  | bool b => some (.bool b)
  | int n => some (.int n)
  | float x => some (.float x)
  | text s => some (.text s)
  | list items => (copyItems? items).map .list
  | record fields => (copyFields? fields).map .record
  | guarded _ => none
  | object _ => none
where
  /-- The items of a list. -/
  copyItems? : List Datum → Option (List Value)
    | [] => some []
    | d :: rest =>
        match copy? d, copyItems? rest with
        | some v, some vs => some (v :: vs)
        | _, _ => none
  /-- The fields of a record. -/
  copyFields? : List (String × Datum) → Option (List (String × Value))
    | [] => some []
    | (k, d) :: rest =>
        match copy? d, copyFields? rest with
        | some v, some vs => some ((k, v) :: vs)
        | _, _ => none

/-- Why a whole number cannot be written. -/
def tooLong : String :=
  "Exceeds the limit (4300 digits) for integer string conversion; "
    ++ "use sys.set_int_max_str_digits() to increase the limit"

/-- Why an object cannot be written. -/
def notWritable (sort : String) : String :=
  "Object of type " ++ sort ++ " is not JSON serializable"

/-- What data look like in JSON, or why they cannot be written: the first obstacle counts. -/
def image : Datum → Except String Value
  | null => .ok .null
  | bool b => .ok (.bool b)
  | int n => if Text.isShort n then .ok (.int n) else .error tooLong
  | float x => .ok (.float x)
  | text s => .ok (.text s)
  | list items => (imageItems items).map .list
  | record fields => (imageFields fields).map .record
  | guarded d => image d
  | object sort => .error (notWritable sort)
where
  /-- The items of a list. -/
  imageItems : List Datum → Except String (List Value)
    | [] => .ok []
    | d :: rest =>
        match image d with
        | .error why => .error why
        | .ok v => (imageItems rest).map (v :: ·)
  /-- The fields of a record. -/
  imageFields : List (String × Datum) → Except String (List (String × Value))
    | [] => .ok []
    | (k, d) :: rest =>
        match image d with
        | .error why => .error why
        | .ok v => (imageFields rest).map ((k, v) :: ·)

/-- What a handler gets in place of data: a deep copy, or else what the data look like in JSON. -/
def clone (d : Datum) : Except String Value :=
  match d.copy? with
  | some v => .ok v
  | none => d.image

end Datum

end SketchHost
