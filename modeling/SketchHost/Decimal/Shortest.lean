/-
**The shortest decimal of a binary64 number.**

A finite number other than zero is `m * 2 ^ q`.  The real numbers that round to it form an interval,
whose ends belong to it iff `m` is even; the decimal shown for it is the one in that interval with
the fewest digits, and among those the nearest.

* `Decimal.Binary`, `Decimal.Binary.ofFloat?` — the exact value of a finite number;
* `Decimal.Digits` — a decimal: its digits, and where the point stands;
* `Decimal.shortest` — the decimal with the fewest digits that reads back;
* `Decimal.Style`, `Decimal.Style.render` — the choice between positional and scientific notation;
* `Decimal.ofScientific` — the number that a decimal denotes.
-/

import SketchHost.Text.Digit

set_option relaxedAutoImplicit false
set_option autoImplicit false

namespace SketchHost

namespace Decimal

/-! ### Exact values -/

/-- The exact value of a number: `mantissa * 2 ^ exponent`.  `narrowBelow` says that the next
smaller number is only half as far away as the next greater one. -/
structure Binary where
  mantissa : Nat
  exponent : Int
  narrowBelow : Bool
deriving DecidableEq, Repr

/-- The exact value of the magnitude of a finite number that is not zero. -/
def Binary.ofFloat? (x : Float) : Option Binary :=
  let bits : Nat := x.toBits.toNat
  let biased : Nat := bits / Nat.pow 2 52 % Nat.pow 2 11
  let fraction : Nat := bits % Nat.pow 2 52
  if biased == 2047 then none
  else if biased == 0 then
    if fraction == 0 then none else some ⟨fraction, -1074, false⟩
  else some ⟨Nat.pow 2 52 + fraction, (biased : Int) - 1075, fraction == 0 && biased != 1⟩

/-- The sign bit of a number. -/
def isNegative (x : Float) : Bool :=
  x.toBits.toNat / Nat.pow 2 63 == 1

/-- A fraction with a positive denominator. -/
structure Ratio where
  num : Nat
  den : Nat
deriving DecidableEq, Repr

/-- `n * 2 ^ e` as a fraction. -/
def Ratio.ofBinary (n : Nat) (e : Int) : Ratio :=
  match e with
  | .ofNat k => ⟨n * Nat.pow 2 k, 1⟩
  | .negSucc k => ⟨n, Nat.pow 2 (k + 1)⟩

/-- `r * 10 ^ e` as a fraction. -/
def Ratio.shift (r : Ratio) (e : Int) : Ratio :=
  match e with
  | .ofNat k => ⟨r.num * Nat.pow 10 k, r.den⟩
  | .negSucc k => ⟨r.num, r.den * Nat.pow 10 (k + 1)⟩

/-- The order of two fractions. -/
def Ratio.le (a b : Ratio) : Bool :=
  a.num * b.den ≤ b.num * a.den

/-- The strict order of two fractions. -/
def Ratio.lt (a b : Ratio) : Bool :=
  a.num * b.den < b.num * a.den

/-! ### Digits -/

/-- A decimal `0.d₁d₂… * 10 ^ point`. -/
structure Digits where
  digits : List Char
  point : Int
deriving DecidableEq, Repr

/-- The least `k` from the given one on with `r < 10 ^ k`, by at most `fuel` steps up. -/
def climb (r : Ratio) : Nat → Int → Int
  | 0, k => k
  | fuel + 1, k => if (r.shift (-k)).lt ⟨1, 1⟩ then k else climb r fuel (k + 1)

/-- The least `k` with `r < 10 ^ k`, for a fraction in the range of binary64. -/
def magnitude (r : Ratio) : Int :=
  climb r 640 (-324)

/-- The decimal with `count` digits next to `value` that lies between `low` and `high`, if there is
one; of two, the nearer, and of two equally near ones the one with the even last digit. -/
def candidate (value low high : Ratio) (closed : Bool) (count : Nat) (point : Int) :
    Option Nat :=
  let grid := value.shift (count - point)
  let lowGrid := low.shift (count - point)
  let highGrid := high.shift (count - point)
  let inside (n : Nat) : Bool :=
    let r : Ratio := ⟨n, 1⟩
    if closed then lowGrid.le r && r.le highGrid else lowGrid.lt r && r.lt highGrid
  let below := grid.num / grid.den
  let above := below + 1
  let rest := grid.num % grid.den
  match inside below, inside above with
  | false, false => none
  | true, false => some below
  | false, true => some above
  | true, true =>
      if 2 * rest < grid.den then some below
      else if grid.den < 2 * rest then some above
      else if below % 2 == 0 then some below else some above

/-- The digits of `n` without trailing zeros. -/
def significant (n : Nat) : List Char :=
  ((Text.decimal n).reverse.dropWhile (· == '0')).reverse

/-- The first of the given digit counts that has a decimal in the interval. -/
def search (value low high : Ratio) (closed : Bool) (point : Int) : List Nat → Digits
  | [] => ⟨['0'], 1⟩
  | count :: more =>
      match candidate value low high closed count point with
      | none => search value low high closed point more
      | some n =>
          let digits := Text.decimal n
          ⟨significant n, point + digits.length - count⟩

/-- The decimal with the fewest digits that reads back as the value; seventeen always suffice. -/
def shortest (b : Binary) : Digits :=
  let value := Ratio.ofBinary (4 * b.mantissa) (b.exponent - 2)
  let low := Ratio.ofBinary (4 * b.mantissa - if b.narrowBelow then 1 else 2) (b.exponent - 2)
  let high := Ratio.ofBinary (4 * b.mantissa + 2) (b.exponent - 2)
  search value low high (b.mantissa % 2 == 0) (magnitude value) (List.range' 1 17)

/-! ### Notation -/

/-- Where positional notation ends, and the least number of digits of an exponent. -/
structure Style where
  leastPoint : Int
  greatestPoint : Int
  exponentDigits : Nat
deriving DecidableEq, Repr

/-- The digits of an exponent, with its sign. -/
def Style.exponent (style : Style) (e : Int) : List Char :=
  let digits := Text.decimal e.natAbs
  let sign := if e < 0 then '-' else '+'
  'e' :: sign :: List.replicate (style.exponentDigits - digits.length) '0' ++ digits

/-- A decimal as it is written: with a point and a digit after it in positional notation, and else
with one digit before the point and an exponent. -/
def Style.renderDigits (style : Style) (d : Digits) : List Char :=
  let count : Int := d.digits.length
  if d.point < style.leastPoint || style.greatestPoint < d.point then
    match d.digits with
    | [] => []
    | first :: [] => first :: style.exponent (d.point - 1)
    | first :: rest => first :: '.' :: rest ++ style.exponent (d.point - 1)
  else if d.point ≤ 0 then
    '0' :: '.' :: List.replicate (-d.point).toNat '0' ++ d.digits
  else if count ≤ d.point then
    d.digits ++ List.replicate (d.point - count).toNat '0' ++ ['.', '0']
  else
    d.digits.take d.point.toNat ++ '.' :: d.digits.drop d.point.toNat

/-- A number as it is written. -/
def Style.render (style : Style) (x : Float) : List Char :=
  let sign := if isNegative x then ['-'] else []
  if x.isNaN then "nan".toList
  else if x.isInf then sign ++ "inf".toList
  else
    match Binary.ofFloat? x with
    | none => sign ++ "0.0".toList
    | some b => sign ++ style.renderDigits (shortest b)

/-! ### Reading -/

/-- The number nearest to `digits * 10 ^ exponent`. -/
def ofScientific (negative : Bool) (digits : Nat) (exponent : Int) : Float :=
  let x :=
    match exponent with
    | .ofNat k => Float.ofScientific digits false k
    | .negSucc k => Float.ofScientific digits true (k + 1)
  if negative then -x else x

/-! ### Comparison with integers -/

/-- The integer that a number equals, if it is one. -/
def toInt? (x : Float) : Option Int :=
  if x == 0.0 then some 0
  else
    (Binary.ofFloat? x).bind fun b =>
      let r := Ratio.ofBinary b.mantissa b.exponent
      if r.num % r.den == 0 then
        let n : Int := (r.num / r.den : Nat)
        some (if isNegative x then -n else n)
      else none

end Decimal

end SketchHost
