/-
**Numbers.**

A number is whole or a binary64 number.  A whole number and a binary64 number are equal if they have
the same value, however they are written.

* `Number` — a number, and its equality by value;
* `Number.ofValue?`, `Number.toValue` — numbers among values;
* `Number.toFloat` — the nearest binary64 number, `Number.isTooLarge` — whether there is none.
-/

import SketchHost.Value.Basic

set_option relaxedAutoImplicit false
set_option autoImplicit false

namespace SketchHost

/-- A number. -/
inductive Number where
  | whole (n : Int)
  | binary (x : Float)
deriving Inhabited

namespace Number

/-- Equality by value. -/
def equals : Number → Number → Bool
  | whole m, whole n => m == n
  | binary x, binary y => x == y
  | whole n, binary x => Decimal.toInt? x == some n
  | binary x, whole n => Decimal.toInt? x == some n

instance : BEq Number := ⟨equals⟩

/-- A value that is a number. -/
def ofValue? : Value → Option Number
  | .int n => some (whole n)
  | .float x => some (binary x)
  | _ => none

/-- A number as a value. -/
def toValue : Number → Value
  | whole n => .int n
  | binary x => .float x

@[simp] theorem ofValue?_toValue (n : Number) : ofValue? n.toValue = some n := by
  cases n <;> rfl

/-- The nearest binary64 number. -/
def toFloat : Number → Float
  | whole n => Decimal.ofScientific (n < 0) n.natAbs 0
  | binary x => x

/-- A whole number beyond the range of binary64 numbers. -/
def isTooLarge : Number → Bool
  | whole n => (toFloat (whole n)).isInf
  | binary _ => false

/-- A number that is not infinite and not undefined. -/
def isFinite : Number → Bool
  | whole _ => true
  | binary x => !x.isNaN && !x.isInf

/-- A number below zero. -/
def isNegative : Number → Bool
  | whole n => n < 0
  | binary x => x < 0.0

end Number

end SketchHost
