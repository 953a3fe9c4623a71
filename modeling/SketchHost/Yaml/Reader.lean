/-
**Values in YAML.**

What a plain scalar denotes is told by its form: a truth value, a number, nothing, or else a text.  A
date is a text as well, and the tags of dates, sets, pairs and binary data are refused.  The key of a
field is a text, whatever it denotes.

* `Yaml.wholeNumber?`, `Yaml.decimalNumber?` — the forms of numbers;
* `Yaml.plainValue?` — what a plain scalar denotes;
* `Yaml.valueOf?` — what a node denotes;
* `Yaml.read?` — what a text denotes; an empty text denotes null.
-/

import SketchHost.Value.Basic
import SketchHost.Value.Shown
import SketchHost.Yaml.Node

set_option relaxedAutoImplicit false
set_option autoImplicit false

namespace SketchHost

namespace Yaml

/-! ### Words -/

/-- The words for truth values, in small letters. -/
def truthWords : List (String × Bool) :=
  [("yes", true), ("no", false), ("true", true), ("false", false), ("on", true), ("off", false)]

/-- The truth value that a word denotes in small letters, in capitals, or with a first capital. -/
def truth? (s : String) : Option Bool :=
  truthWords.findSome? fun (word, b) =>
    if s == word || s == word.toUpper || s == word.capitalize then some b else none

/-- The words for nothing. -/
def isNull (s : String) : Bool :=
  ["", "~", "null", "Null", "NULL"].contains s

/-! ### Numbers -/

/-- A sign, if there is one, and what follows: whether it is a minus. -/
def signed : List Char → Bool × List Char
  | '-' :: rest => (true, rest)
  | '+' :: rest => (false, rest)
  | cs => (false, cs)

/-- The number that digits of a base denote; underscores are left out. -/
def inBase? (base : Nat) (cs : List Char) : Option Nat :=
  let digits := cs.filter (· != '_')
  if digits.isEmpty then none
  else
    digits.foldlM (fun n c =>
      match Json.hexValue? c with
      | some d => if d < base then some (base * n + d) else none
      | none => none) 0

/-- A character of a decimal numeral after the first one. -/
def isDigitOrGap (c : Char) : Bool :=
  Text.isAsciiDigit c || c == '_'

/-- A run of digits and underscores that begins with a digit. -/
def isNumeral (cs : List Char) : Bool :=
  cs.head?.any Text.isAsciiDigit && cs.all isDigitOrGap

/-- A part of a number in base sixty after the first one. -/
def isSixtieth (cs : List Char) : Bool :=
  match cs with
  | [d] => Text.isAsciiDigit d
  | [t, d] => '0' ≤ t && t ≤ '5' && Text.isAsciiDigit d
  | _ => false

/-- The number that parts in base sixty denote. -/
def sixtieths (parts : List (List Char)) : Nat :=
  parts.foldl (fun n part => 60 * n + Text.natOfDigits (part.filter (· != '_'))) 0

/-- The magnitude of a whole number: binary, octal, decimal, hexadecimal, or in base sixty. -/
def magnitude? (cs : List Char) : Option Nat :=
  match cs with
  | ['0'] => some 0
  | '0' :: 'b' :: rest => inBase? 2 rest
  | '0' :: 'x' :: rest => inBase? 16 rest
  | '0' :: rest => inBase? 8 rest
  | _ =>
      if isNumeral cs then inBase? 10 cs
      else
        match Text.splitAt ':' cs with
        | first :: rest =>
            if !rest.isEmpty && isNumeral first && rest.all isSixtieth then
              some (sixtieths (first :: rest))
            else none
        | [] => none

/-- The whole number of this form. -/
def wholeNumber? (cs : List Char) : Option Int :=
  let (negative, body) := signed cs
  (magnitude? body).map fun n => if negative then -(n : Int) else n

/-- The exponent of a decimal number, which needs a sign; no text is the exponent zero. -/
def exponent? (cs : List Char) : Option Int :=
  match cs with
  | [] => some 0
  | e :: sign :: digits =>
      if (e == 'e' || e == 'E') && !digits.isEmpty && digits.all Text.isAsciiDigit then
        let n : Int := Text.natOfDigits digits
        if sign == '-' then some (-n) else if sign == '+' then some n else none
      else none
  | _ => none

/-- The magnitude of a decimal number with a point. -/
def pointed? (negative : Bool) (whole after : List Char) : Option Float := do
  let places := after.takeWhile isDigitOrGap
  let e ← exponent? (after.dropWhile isDigitOrGap)
  if whole.isEmpty && !places.head?.any Text.isAsciiDigit then none
  else
    let digits := (whole ++ places).filter (· != '_')
    let count := (places.filter (· != '_')).length
    some (Decimal.ofScientific negative (Text.natOfDigits digits) (e - count))

/-- The decimal number of this form, or one of the numbers that are not finite. -/
def decimalNumber? (cs : List Char) : Option Float :=
  let (negative, body) := signed cs
  let hasSign := body.length < cs.length
  let text := String.ofList body
  if [".inf", ".Inf", ".INF"].contains text then some (if negative then -1.0 / 0.0 else 1.0 / 0.0)
  else if !hasSign && [".nan", ".NaN", ".NAN"].contains text then some (0.0 / 0.0)
  else
    match Text.splitAt '.' body with
    | [whole, after] =>
        if whole.isEmpty then if hasSign then none else pointed? negative whole after
        else if isNumeral whole then pointed? negative whole after
        else
          match Text.splitAt ':' whole with
          | first :: rest =>
              if !rest.isEmpty && isNumeral first && rest.all isSixtieth && after.all isDigitOrGap then
                let places := after.filter (· != '_')
                let n := sixtieths (first :: rest) * Nat.pow 10 places.length + Text.natOfDigits places
                some (Decimal.ofScientific negative n (-(places.length : Int)))
              else none
          | [] => none
    | _ => none

/-! ### Scalars -/

/-- What a plain scalar denotes; an equals sign alone, or the merge key, denotes nothing that can be
read. -/
def plainValue? (cs : List Char) : Option Value :=
  let s := String.ofList cs
  if isNull s then some .null
  else if s == "=" || s == "<<" then none
  else
    match truth? s with
    | some b => some (.bool b)
    | none =>
        match decimalNumber? cs with
        | some x => some (.float x)
        | none =>
            match wholeNumber? cs with
            | some n => some (.int n)
            | none => some (.text s)

/-- The name of a sort of values, from a tag. -/
def sortOf? (tag : String) : Option String :=
  let lead := "!!".toList
  let long := "!<tag:yaml.org,2002:".toList
  if lead.isPrefixOf tag.toList then some (String.ofList (tag.toList.drop lead.length))
  else if long.isPrefixOf tag.toList && tag.toList.getLast? == some '>' then
    some (String.ofList ((tag.toList.drop long.length).dropLast))
  else none

/-- What a scalar denotes.  Under the tag that names no sort it denotes what it would if it were plain. -/
def scalarValue? (tag? : Option String) (cs : List Char) (plain : Bool) : Option Value :=
  match tag? with
  | none => if plain then plainValue? cs else some (.text (String.ofList cs))
  | some "!" => plainValue? cs
  | some tag =>
      match sortOf? tag with
      | some "str" => some (.text (String.ofList cs))
      | some "int" => (wholeNumber? cs).map .int
      | some "float" =>
          match decimalNumber? cs, wholeNumber? cs with
          | some x, _ => some (.float x)
          | none, some n => some (.float (Decimal.ofScientific (n < 0) n.natAbs 0))
          | none, none => none
      | some "bool" => (truth? (String.ofList cs).toLower).map .bool
      | some "null" => some .null
      | _ => none

/-! ### Nodes -/

/-- The text of a value as the key of a field; a list or a record is no key. -/
def keyText? : Value → Option String
  | .text s => some s
  | .null => some "null"
  | .bool b => some (if b then "true" else "false")
  | .int n => some (String.ofList (Text.decimalInt n))
  | .float x => some (String.ofList (Value.numberStyle.render x))
  | _ => none

/-- Whether a node is the key under which other records are merged in. -/
def isMergeKey : Node → Bool
  | .scalar none text true => text == ['<', '<']
  | _ => false

/-- The fields that a record takes over from a value under the merge key: of several records, the
first one wins. -/
def mergedFields? (v : Value) : Option Fields :=
  match v with
  | .record fields => some fields
  | .list items => (items.reverse.mapM Value.fields?).map List.flatten
  | _ => none

/-- A field of a record before records are merged. -/
inductive Entry where
  | field (key : String) (v : Value)
  | merge (fields : Fields)

/-- The fields of a record: those that are merged in come first, and its own ones win. -/
def assemble (entries : List Entry) : Fields :=
  let merged := entries.flatMap fun
    | .merge fields => fields
    | .field _ _ => []
  let own := entries.filterMap fun
    | .field k v => some (k, v)
    | .merge _ => none
  Fields.ofList (merged ++ own)

/-- A collection may have no tag, or the tag of its sort. -/
def isSort (sort : String) (tag? : Option String) : Bool :=
  tag?.all fun tag => tag == "!" || sortOf? tag == some sort

/-- What a node denotes. -/
def valueOf? : Node → Option Value
  | .scalar tag? text plain => scalarValue? tag? text plain
  | .list tag? items => if isSort "seq" tag? then (items? items).map .list else none
  | .record tag? fields =>
      if isSort "map" tag? then (entries? fields).map fun es => .record (assemble es) else none
where
  /-- What several nodes denote. -/
  items? : List Node → Option (List Value)
    | [] => some []
    | n :: rest =>
        match valueOf? n, items? rest with
        | some v, some vs => some (v :: vs)
        | _, _ => none
  /-- What pairs of nodes denote. -/
  entries? : List (Node × Node) → Option (List Entry)
    | [] => some []
    | (k, n) :: rest =>
        match valueOf? n, entries? rest with
        | some v, some es =>
            if isMergeKey k then (mergedFields? v).map fun fs => .merge fs :: es
            else
              let key? := match k with
                | .scalar none ['='] true => some "="
                | _ => (valueOf? k).bind keyText?
              key?.map fun key => .field key v :: es
        | _, _ => none

/-- What a text denotes. -/
def read? (cs : List Char) : Option Value :=
  match document? cs with
  | none => none
  | some none => some .null
  | some (some n) => valueOf? n

end Yaml

end SketchHost
