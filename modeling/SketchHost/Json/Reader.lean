/-
**Reading JSON.**

A text in JSON denotes a plain value.  A number with a point or an exponent is a binary64 number, and
any other one is a whole number, of at most 4300 digits.

* `Json.number?` — the number at the head of a text;
* `Json.value?` — the value at the head of a text;
* `Json.read?` — the value of a text.
-/

import SketchHost.Json.Literal
import SketchHost.Value.Basic

set_option relaxedAutoImplicit false
set_option autoImplicit false

namespace SketchHost

namespace Json

/-! ### Spaces and words -/

/-- A character that separates the elements of a text in JSON. -/
def isSpace (c : Char) : Bool :=
  c == ' ' || c == '\t' || c == '\n' || c == '\r'

/-- A text without the spaces at its head. -/
def skipSpaces (cs : List Char) : List Char :=
  cs.dropWhile isSpace

/-- What follows a word at the head of a text. -/
def afterWord? (word : String) (cs : List Char) : Option (List Char) :=
  if word.toList.isPrefixOf cs then some (cs.drop word.length) else none

/-! ### Numbers -/

/-- The digits at the head of a text, and what follows them. -/
def digits (cs : List Char) : List Char × List Char :=
  (cs.takeWhile Text.isAsciiDigit, cs.dropWhile Text.isAsciiDigit)

/-- The digits after a point, if a point and a digit are at the head of a text. -/
def fraction (cs : List Char) : List Char × List Char :=
  match cs with
  | '.' :: rest => if (digits rest).1.isEmpty then ([], cs) else digits rest
  | _ => ([], cs)

/-- The exponent at the head of a text, if there is one. -/
def exponent? (cs : List Char) : Option (Int × List Char) :=
  match cs with
  | e :: rest =>
      if e == 'e' || e == 'E' then
        let (negative, body) := match rest with
          | '-' :: more => (true, more)
          | '+' :: more => (false, more)
          | _ => (false, rest)
        let (ds, after) := digits body
        if ds.isEmpty then none
        else
          let n : Int := Text.natOfDigits ds
          some (if negative then -n else n, after)
      else none
  | [] => none

/-- The number at the head of a text: no digit follows a first zero. -/
def number? (cs : List Char) : Option (Value × List Char) :=
  let (negative, body) := match cs with
    | '-' :: rest => (true, rest)
    | _ => (false, cs)
  let (whole, afterWhole) := match body with
    | '0' :: rest => (['0'], rest)
    | _ => digits body
  if whole.isEmpty then none
  else
    let (places, afterPlaces) := fraction afterWhole
    let exponent := exponent? afterPlaces
    if places.isEmpty && exponent.isNone then
      if whole.length > Text.maxDigits then none
      else
        let n : Int := Text.natOfDigits whole
        some (.int (if negative then -n else n), afterWhole)
    else
      let (e, after) := exponent.getD (0, afterPlaces)
      let n := Text.natOfDigits (whole ++ places)
      some (.float (Decimal.ofScientific negative n (e - places.length)), after)

/-! ### Values -/

/-- The words that denote a value. -/
def words : List (String × Value) :=
  [("null", .null), ("true", .bool true), ("false", .bool false),
   ("NaN", .float (0.0 / 0.0)), ("Infinity", .float (1.0 / 0.0)),
   ("-Infinity", .float (-1.0 / 0.0))]

/-- The value of the word at the head of a text. -/
def word? (cs : List Char) : Option (Value × List Char) :=
  words.findSome? fun (word, v) => (afterWord? word cs).map fun rest => (v, rest)

mutual

/-- The value at the head of a text, to a given depth. -/
def value? : Nat → List Char → Option (Value × List Char)
  | 0, _ => none
  | depth + 1, cs =>
      match skipSpaces cs with
      | '\x22' :: rest => (literalTail? rest).map fun (s, after) => (.text (String.ofList s), after)
      | '[' :: rest =>
          match skipSpaces rest with
          | ']' :: after => some (.list [], after)
          | body => (items? depth body).map fun (vs, after) => (.list vs, after)
      | '\x7b' :: rest =>
          match skipSpaces rest with
          | '\x7d' :: after => some (.record [], after)
          | body => (fields? depth body).map fun (fs, after) => (.record (Fields.ofList fs), after)
      | body => word? body <|> number? body

/-- The items of a list up to its closing bracket, which is read too. -/
def items? : Nat → List Char → Option (List Value × List Char)
  | 0, _ => none
  | depth + 1, cs =>
      match value? depth cs with
      | none => none
      | some (v, rest) =>
          match skipSpaces rest with
          | ',' :: more => (items? depth more).map fun (vs, after) => (v :: vs, after)
          | ']' :: after => some ([v], after)
          | _ => none

/-- The fields of a record up to its closing brace, which is read too. -/
def fields? : Nat → List Char → Option (List (String × Value) × List Char)
  | 0, _ => none
  | depth + 1, cs =>
      match skipSpaces cs with
      | '\x22' :: rest =>
          match literalTail? rest with
          | none => none
          | some (key, afterKey) =>
              match skipSpaces afterKey with
              | ':' :: body =>
                  match value? depth body with
                  | none => none
                  | some (v, rest) =>
                      let field := (String.ofList key, v)
                      match skipSpaces rest with
                      | ',' :: more => (fields? depth more).map fun (fs, after) => (field :: fs, after)
                      | '\x7d' :: after => some ([field], after)
                      | _ => none
              | _ => none
      | _ => none

end

/-- The value of a text, which holds nothing else but spaces. -/
def read? (cs : List Char) : Option Value :=
  match value? (2 * cs.length + 2) cs with
  | some (v, rest) => if (skipSpaces rest).isEmpty then some v else none
  | none => none

end Json

end SketchHost
