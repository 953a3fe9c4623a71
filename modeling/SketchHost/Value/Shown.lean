/-
**Values inside messages.**

The text of a value where a message has to show it: texts in quotes, lists in brackets, records in
braces.

* `Value.shown` — a value as it stands inside another one;
* `Value.display` — a value on its own: a text is its own display;
* `Value.isWritable` — whether all its numbers are short enough to be written out;
* `Value.display?` — the display of a value that can be written out.
-/

import SketchHost.Text.Blank
import SketchHost.Text.Quoted
import SketchHost.Value.Basic

set_option relaxedAutoImplicit false
set_option autoImplicit false

namespace SketchHost

namespace Value

/-- A value as it stands inside another one. -/
def shown : Value → List Char
  | null => "None".toList
  | bool true => "True".toList
  | bool false => "False".toList
  | int n => Text.decimalInt n
  | float x => numberStyle.render x
  | text s => Text.quoted s.toList
  | list items => '[' :: Text.joined [',', ' '] (shownItems items) ++ [']']
  | record fields => '{' :: Text.joined [',', ' '] (shownFields fields) ++ ['}']
where
  /-- The items of a list. -/
  shownItems : List Value → List (List Char)
    | [] => []
    | v :: rest => shown v :: shownItems rest
  /-- The fields of a record. -/
  shownFields : List (String × Value) → List (List Char)
    | [] => []
    | (k, v) :: rest => (Text.quoted k.toList ++ [':', ' '] ++ shown v) :: shownFields rest

/-- A value on its own. -/
def display : Value → List Char
  | text s => s.toList
  | v => shown v

/-- Whether a value can be written out: every whole number in it is short enough. -/
def isWritable : Value → Bool
  | int n => Text.isShort n
  | list items => areItems items
  | record fields => areFields fields
  | _ => true
where
  /-- The items of a list. -/
  areItems : List Value → Bool
    | [] => true
    | v :: rest => isWritable v && areItems rest
  /-- The fields of a record. -/
  areFields : List (String × Value) → Bool
    | [] => true
    | (_, v) :: rest => isWritable v && areFields rest

/-- The display of a value, if it can be written out. -/
def display? (v : Value) : Option (List Char) :=
  if v.isWritable then some v.display else none

end Value

end SketchHost
