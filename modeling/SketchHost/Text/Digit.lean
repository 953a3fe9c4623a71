/-
**Decimal digits.**

Unicode has sixty-six runs of ten decimal digits.  A numeral in the text of an error may use any of
them, and reads as the same number.

* `Text.digitZeros` — the code points of the digits zero;
* `Text.digitValue?` — the value of a decimal digit, `Text.isDigit` — whether a character is one;
* `Text.natOfDigits` — the number that a run of digits denotes;
* `Text.decimal`, `Text.decimalInt` — the digits of a number, in ASCII;
* `Text.maxDigits`, `Text.isShort` — how long a number may be that is read or written.
-/

set_option relaxedAutoImplicit false
set_option autoImplicit false

namespace SketchHost

namespace Text

/-- The code points of the decimal digits zero; each begins a run of ten. -/
def digitZeros : List Nat :=
  [0x30, 0x660, 0x6f0, 0x7c0, 0x966, 0x9e6, 0xa66, 0xae6, 0xb66, 0xbe6, 0xc66, 0xce6, 0xd66, 0xde6,
   0xe50, 0xed0, 0xf20, 0x1040, 0x1090, 0x17e0, 0x1810, 0x1946, 0x19d0, 0x1a80, 0x1a90, 0x1b50,
   0x1bb0, 0x1c40, 0x1c50, 0xa620, 0xa8d0, 0xa900, 0xa9d0, 0xa9f0, 0xaa50, 0xabf0, 0xff10, 0x104a0,
   0x10d30, 0x11066, 0x110f0, 0x11136, 0x111d0, 0x112f0, 0x11450, 0x114d0, 0x11650, 0x116c0,
   0x11730, 0x118e0, 0x11950, 0x11c50, 0x11d50, 0x11da0, 0x16a60, 0x16ac0, 0x16b50, 0x1d7ce,
   0x1d7d8, 0x1d7e2, 0x1d7ec, 0x1d7f6, 0x1e140, 0x1e2f0, 0x1e950, 0x1fbf0]

/-- The value of `c` if it is a decimal digit of any script. -/
def digitValue? (c : Char) : Option Nat :=
  (digitZeros.find? fun z => z ≤ c.toNat && c.toNat < z + 10).map fun z => c.toNat - z

/-- A decimal digit of any script. -/
def isDigit (c : Char) : Bool :=
  (digitValue? c).isSome

/-- An ASCII digit. -/
def isAsciiDigit (c : Char) : Bool :=
  '0' ≤ c && c ≤ '9'

/-- The value of a digit, zero for any other character. -/
def digitValue (c : Char) : Nat :=
  (digitValue? c).getD 0

/-- The number that a run of digits denotes. -/
def natOfDigits (cs : List Char) : Nat :=
  cs.foldl (fun n c => 10 * n + digitValue c) 0

@[simp] theorem natOfDigits_nil : natOfDigits [] = 0 := rfl

/-- The digits of a number in base ten, without leading zeros. -/
def decimal (n : Nat) : List Char :=
  Nat.toDigits 10 n

/-- The digits of an integer, after a minus sign if it is negative. -/
def decimalInt : Int → List Char
  | .ofNat n => decimal n
  | .negSucc n => '-' :: decimal (n + 1)

/-- The greatest number of digits of a number that is read or written. -/
def maxDigits : Nat := 4300

/-- An integer with few enough digits to be written out. -/
@[irreducible] def isShort (n : Int) : Bool :=
  n.natAbs < Nat.pow 10 maxDigits

end Text

end SketchHost
