/-
**Values of a given sort.**

Where a text, a number or a truth value is asked for, a value of another sort is taken if it plainly
stands for one: a numeral for its number, a word for its truth value, a whole decimal for its integer.

* `Misfit` — why a value is not of the sort that is asked for, and `Misfit.code`, its name;
* `Value.asText`, `Value.asInt`, `Value.asBool`, `Value.asTexts` — a value as one of a sort;
* `Value.orNull` — a value of a sort, or null.
-/

import SketchHost.Text.Blank
import SketchHost.Value.Basic

set_option relaxedAutoImplicit false
set_option autoImplicit false

namespace SketchHost

/-- Why a value is not of the sort that is asked for. -/
inductive Misfit where
  | notText
  | tooShort
  | notInt
  | badNumeral
  | numeralTooLong
  | notWhole
  | notFinite
  | tooSmall
  | notBool
  | badTruthWord
  | notList
  | notRecord
  | missing
deriving DecidableEq, Repr

/-- The name of a misfit. -/
def Misfit.code : Misfit → String
  | notText => "string_type"
  | tooShort => "string_too_short"
  | notInt => "int_type"
  | badNumeral => "int_parsing"
  | numeralTooLong => "int_parsing_size"
  | notWhole => "int_from_float"
  | notFinite => "finite_number"
  | tooSmall => "greater_than_equal"
  | notBool => "bool_type"
  | badTruthWord => "bool_parsing"
  | notList => "list_type"
  | notRecord => "model_type"
  | missing => "missing"

/-- A misfit and the place in the data where it was found. -/
structure Finding where
  place : List String
  misfit : Misfit
deriving DecidableEq, Repr

namespace Value

/-! ### Texts -/

/-- A text. -/
def asText : Value → Except Misfit String
  | text s => .ok s
  | _ => .error .notText

/-- A list of texts, or the misfits of its items with their positions. -/
def asTexts : Value → Except (List (Option Nat × Misfit)) (List String)
  | list items =>
      match items.mapM text? with
      | some texts => .ok texts
      | none =>
          .error ((items.zipIdx.filter fun (v, _) => v.text?.isNone).map fun (_, i) =>
            (some i, .notText))
  | _ => .error [(none, .notList)]

/-! ### Numerals -/

/-- A text without the white space at its ends. -/
def trimWhite (cs : List Char) : List Char :=
  ((cs.dropWhile Text.isWhite).reverse.dropWhile Text.isWhite).reverse

/-- A numeral without a zero and further zeros and underscores before its first other digit; one
zero stays before a point or at the end. -/
def dropLeadingZeros (last : Char) : List Char → Option (List Char)
  | [] => some [last]
  | c :: rest =>
      if c == '0' || c == '_' then dropLeadingZeros c rest
      else if '1' ≤ c && c ≤ '9' then some (c :: rest)
      else if c == '.' then some (last :: c :: rest)
      else none

/-- A numeral without leading zeros; it begins with a digit or a minus sign. -/
def withoutZeros : List Char → Option (List Char)
  | '0' :: rest => dropLeadingZeros '0' rest
  | c :: rest => if ('1' ≤ c && c ≤ '9') || c == '-' then some (c :: rest) else none
  | [] => none

/-- A numeral without a point after which only zeros follow. -/
def withoutPlaces (cs : List Char) : List Char :=
  match cs.span (· != '.') with
  | (whole, '.' :: places) => if !places.isEmpty && places.all (· == '0') then whole else cs
  | _ => cs

/-- Whether underscores stand alone and inside a numeral. -/
def separatesDigits : List Char → Bool
  | '_' :: '_' :: _ => false
  | ['_'] => false
  | _ :: rest => separatesDigits rest
  | [] => true

/-- The integer that digits denote, after a sign if there is one. -/
def signedDigits? (cs : List Char) : Option Int :=
  let (negative, digits) := match cs with
    | '-' :: rest => (true, rest)
    | '+' :: rest => (false, rest)
    | _ => (false, cs)
  if digits.isEmpty || !digits.all Text.isAsciiDigit then none
  else
    let n : Int := Text.natOfDigits digits
    some (if negative then -n else n)

/-- The greatest number of characters of a numeral that is read. -/
def maxNumeral : Nat := 4300

/-- The integer that a numeral denotes: white space may surround it, single underscores may separate
its digits, and a point with zeros may follow. -/
def readNumeral (s : String) : Except Misfit Int :=
  let trimmed := trimWhite s.toList
  let unsigned := match trimmed with
    | '+' :: rest => rest
    | _ => trimmed
  match withoutZeros unsigned with
  | none => .error .badNumeral
  | some body =>
      let whole := withoutPlaces body
      if whole.length > maxNumeral then .error .numeralTooLong
      else if whole.head? == some '_' || !separatesDigits whole then .error .badNumeral
      else
        match signedDigits? (whole.filter (· != '_')) with
        | some n => .ok n
        | none => .error .badNumeral

/-! ### Numbers and truth values -/

/-- The integer that a whole decimal equals, if it is one of sixty-four bits. -/
def wholeFloat (x : Float) : Except Misfit Int :=
  if x.isNaN || x.isInf then .error .notFinite
  else
    match Decimal.toInt? x with
    | none => .error .notWhole
    | some n => if n.natAbs < Nat.pow 2 63 then .ok n else .error .numeralTooLong

/-- An integer. -/
def asInt : Value → Except Misfit Int
  | int n => .ok n
  | bool b => .ok (if b then 1 else 0)
  | float x => wholeFloat x
  | text s => readNumeral s
  | _ => .error .notInt

/-- The words for true and for false, in small letters. -/
def truthWords : List (String × Bool) :=
  [("0", false), ("f", false), ("n", false), ("no", false), ("off", false), ("false", false),
   ("1", true), ("t", true), ("y", true), ("on", true), ("yes", true), ("true", true)]

/-- The truth value that an integer stands for. -/
def truthOfInt (n : Int) : Except Misfit Bool :=
  if n == 0 then .ok false else if n == 1 then .ok true else .error .badTruthWord

/-- A truth value. -/
def asBool : Value → Except Misfit Bool
  | bool b => .ok b
  | int n => truthOfInt n
  | float x =>
      match wholeFloat x with
      | .ok n => truthOfInt n
      | .error _ => .error .notBool
  | text s =>
      match truthWords.lookup s.toLower with
      | some b => .ok b
      | none => .error .badTruthWord
  | _ => .error .notBool

/-- A value of a sort, or null. -/
def orNull {α : Type} (read : Value → Except Misfit α) : Value → Except Misfit (Option α)
  | null => .ok none
  | v => (read v).map some

end Value

end SketchHost
