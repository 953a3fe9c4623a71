/-
**String literals of JSON.**

A literal is written in ASCII alone: quotes, backslashes and control characters are escaped, and a
character beyond ASCII stands as one or two units of sixteen bits.  A reader accepts all escapes of
the format.

* `Json.unitsOf` — the sixteen-bit units of a character;
* `Json.escape`, `Json.quote` — a text as a literal;
* `Json.literalTail?` — the text of a literal whose opening quote was read, and what follows it.
-/

import SketchHost.Text.Quoted

set_option relaxedAutoImplicit false
set_option autoImplicit false

namespace SketchHost

namespace Json

/-! ### Writing -/

/-- The sixteen-bit units of a character: one, or two that share the bits of a code point beyond
`0xffff`. -/
def unitsOf (c : Char) : List Nat :=
  let n := c.toNat
  if n < 0x10000 then [n] else [0xd800 + (n - 0x10000) / 0x400, 0xdc00 + (n - 0x10000) % 0x400]

/-- The escape of a unit. -/
def escapeUnit (n : Nat) : List Char :=
  '\\' :: 'u' :: Text.hex 4 n

/-- One character inside a literal. -/
def escape (c : Char) : List Char :=
  if c == '\x22' || c == '\\' then ['\\', c]
  else if c == '\n' then ['\\', 'n']
  else if c == '\r' then ['\\', 'r']
  else if c == '\t' then ['\\', 't']
  else if c.toNat == 0x08 then ['\\', 'b']
  else if c.toNat == 0x0c then ['\\', 'f']
  else if 0x20 ≤ c.toNat && c.toNat < 0x7f then [c]
  else (unitsOf c).flatMap escapeUnit

/-- A text as a literal. -/
def quote (cs : List Char) : List Char :=
  '\x22' :: cs.flatMap escape ++ ['\x22']

/-! ### Reading -/

/-- The value of a hexadecimal digit. -/
def hexValue? (c : Char) : Option Nat :=
  if '0' ≤ c && c ≤ '9' then some (c.toNat - 0x30)
  else if 'a' ≤ c && c ≤ 'f' then some (c.toNat - 0x57)
  else if 'A' ≤ c && c ≤ 'F' then some (c.toNat - 0x37)
  else none

/-- The number that four hexadecimal digits denote. -/
def unit? (a b c d : Char) : Option Nat := do
  return ((← hexValue? a) * 16 + (← hexValue? b)) * 256 + ((← hexValue? c) * 16 + (← hexValue? d))

/-- A unit that is the first half of a character. -/
def isHighHalf (n : Nat) : Bool :=
  0xd800 ≤ n && n < 0xdc00

/-- A unit that is the second half of a character. -/
def isLowHalf (n : Nat) : Bool :=
  0xdc00 ≤ n && n < 0xe000

/-- The character that two halves make. -/
def joinHalves (high low : Nat) : Char :=
  Char.ofNat (0x10000 + (high - 0xd800) * 0x400 + (low - 0xdc00))

/-- The character that a short escape stands for. -/
def shortEscape? (c : Char) : Option Char :=
  match c with
  | '\x22' => some '\x22'
  | '\\' => some '\\'
  | '/' => some '/'
  | 'n' => some '\n'
  | 'r' => some '\r'
  | 't' => some '\t'
  | 'b' => some '\x08'
  | 'f' => some '\x0c'
  | _ => none

/-- A character before the text that a reader found. -/
def andThen (c : Char) (r : Option (List Char × List Char)) : Option (List Char × List Char) :=
  r.map fun (text, rest) => (c :: text, rest)

/-- The text of a literal whose opening quote was read, and what follows the closing one.  Control
characters have to be escaped, and half a character is none. -/
def literalTail? : List Char → Option (List Char × List Char)
  | [] => none
  | '\x22' :: rest => some ([], rest)
  | '\\' :: 'u' :: a :: b :: c :: d :: rest =>
      match unit? a b c d with
      | none => none
      | some n =>
          if isHighHalf n then
            match rest with
            | '\\' :: 'u' :: e :: f :: g :: h :: more =>
                match unit? e f g h with
                | some m => if isLowHalf m then andThen (joinHalves n m) (literalTail? more) else none
                | none => none
            | _ => none
          else if isLowHalf n then none
          else andThen (Char.ofNat n) (literalTail? rest)
  | '\\' :: c :: rest =>
      match shortEscape? c with
      | some x => andThen x (literalTail? rest)
      | none => none
  | c :: rest => if c.toNat < 0x20 || c == '\\' then none else andThen c (literalTail? rest)

end Json

end SketchHost
