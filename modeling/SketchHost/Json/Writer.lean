/-
**Writing JSON.**

A value in JSON, either on one line or with one item a line.

* `Json.compact` — a value on one line;
* `Json.indented` — a value with its items on lines of their own.
-/

import SketchHost.Json.Literal
import SketchHost.Value.Shown

set_option relaxedAutoImplicit false
set_option autoImplicit false

namespace SketchHost

namespace Json

/-- A binary64 number; the numbers that are not finite have names. -/
def floatText (x : Float) : List Char :=
  if x.isNaN then "NaN".toList
  else if x.isInf then (if x < 0.0 then "-Infinity" else "Infinity").toList
  else Value.numberStyle.render x

/-- A value on one line. -/
def compact : Value → List Char
  | .null => "null".toList
  | .bool true => "true".toList
  | .bool false => "false".toList
  | .int n => Text.decimalInt n
  | .float x => floatText x
  | .text s => quote s.toList
  | .list items => '[' :: Text.joined ", ".toList (compactItems items) ++ [']']
  | .record fields => '\x7b' :: Text.joined ", ".toList (compactFields fields) ++ ['\x7d']
where
  /-- The items of a list. -/
  compactItems : List Value → List (List Char)
    | [] => []
    | v :: rest => compact v :: compactItems rest
  /-- The fields of a record. -/
  compactFields : List (String × Value) → List (List Char)
    | [] => []
    | (k, v) :: rest => (quote k.toList ++ ": ".toList ++ compact v) :: compactFields rest

/-- A line break and the margin of a depth: two spaces for each level. -/
def lineStart (depth : Nat) : List Char :=
  '\n' :: List.replicate (2 * depth) ' '

/-- Items between two brackets, each on a line of its own; brackets alone if there are none. -/
def framed (opening closing : Char) (depth : Nat) (items : List (List Char)) : List Char :=
  if items.isEmpty then [opening, closing]
  else
    opening :: lineStart (depth + 1) ++ Text.joined (',' :: lineStart (depth + 1)) items
      ++ lineStart depth ++ [closing]

/-- A value at a depth, with its items on lines of their own. -/
def indentedAt (depth : Nat) : Value → List Char
  | .list items => framed '[' ']' depth (indentedItems items)
  | .record fields => framed '\x7b' '\x7d' depth (indentedFields fields)
  | v => compact v
where
  /-- The items of a list. -/
  indentedItems : List Value → List (List Char)
    | [] => []
    | v :: rest => indentedAt (depth + 1) v :: indentedItems rest
  /-- The fields of a record. -/
  indentedFields : List (String × Value) → List (List Char)
    | [] => []
    | (k, v) :: rest => (quote k.toList ++ ": ".toList ++ indentedAt (depth + 1) v) :: indentedFields rest

/-- A value with its items on lines of their own. -/
def indented (v : Value) : List Char :=
  indentedAt 0 v

end Json

end SketchHost
