/-
**Numerals.**

An integer as a person types it: white space around it, a sign, and digits of any script, between which
single underscores may stand.

* `Text.ungroup?` — digits without the underscores between them;
* `Text.readInt?` — the integer that a text denotes.
-/

import SketchHost.Text.Blank
import SketchHost.Text.Digit

set_option relaxedAutoImplicit false
set_option autoImplicit false

namespace SketchHost

namespace Text

/-- Digits without the underscores between them; an underscore stands alone between two digits. -/
def ungroup? : List Char → Option (List Char)
  | [] => none
  | [c] => if isDigit c then some [c] else none
  | c :: '_' :: rest => if isDigit c then (ungroup? rest).map (c :: ·) else none
  | c :: rest => if isDigit c then (ungroup? rest).map (c :: ·) else none

/-- The number that digits denote, if there are not too many. -/
def readNat? (cs : List Char) : Option Nat :=
  (ungroup? cs).bind fun digits =>
    if digits.length ≤ maxDigits then some (natOfDigits digits) else none

/-- The integer that a text denotes. -/
def readInt? (cs : List Char) : Option Int :=
  match ((cs.dropWhile isWhite).reverse.dropWhile isWhite).reverse with
  | '-' :: digits => (readNat? digits).map fun n => -(n : Int)
  | '+' :: digits => (readNat? digits).map Int.ofNat
  | digits => (readNat? digits).map Int.ofNat

end Text

end SketchHost
