/-
**Line numbers in the text of an error.**

Runtimes name the line of an error in five forms.  A mention is a number that stands in one of them.

* `Mention` — where the digits of a number stand, and the digits;
* `Form` — a test for a mention at the head of a text, and `forms`, the five of them;
* `scan` — the mentions of one form, from left to right;
* `mentions` — the mentions of all forms, one form after the other;
* `lineNumbers` — the different positive numbers that are mentioned;
* `spans` — the mentions of positive numbers in the order of the text.
-/

import SketchHost.Text.Blank
import SketchHost.Text.Caseless
import SketchHost.Text.Digit

set_option relaxedAutoImplicit false
set_option autoImplicit false

namespace SketchHost

namespace LineMap

/-! ### Mentions -/

/-- A run of digits that stands for a line number. -/
structure Mention where
  start : Nat
  digits : List Char
deriving DecidableEq, Repr

namespace Mention

/-- The number that is mentioned. -/
def value (m : Mention) : Nat :=
  Text.natOfDigits m.digits

/-- The place after the digits. -/
def stop (m : Mention) : Nat :=
  m.start + m.digits.length

/-- The greatest number of digits that is read as a number. -/
def maxDigits : Nat := 4300

/-- A mention with more digits than are read as a number. -/
def isTooLong (m : Mention) : Bool :=
  m.digits.length > maxDigits

end Mention

/-! ### Forms -/

/-- What a form finds at the head of a text: the number of characters before the digits, the digits,
and the number of characters after the digits that belong to the form. -/
structure Found where
  lead : Nat
  digits : List Char
  tail : Nat
deriving DecidableEq, Repr

/-- The number of characters that a find covers. -/
def Found.length (f : Found) : Nat :=
  f.lead + f.digits.length + f.tail

/-- A form looks at the head of a text, and at the character before it if there is one. -/
abbrev Form := Option Char → List Char → Option Found

/-- The run of digits at the head of a text, and what follows it; `none` if there is no digit. -/
def digitRun? (cs : List Char) : Option (List Char × List Char) :=
  match cs.takeWhile Text.isDigit with
  | [] => none
  | d :: ds => some (d :: ds, cs.dropWhile Text.isDigit)

/-- `line 12`: the word, blanks and the number. -/
def wordForm : Form := fun _ cs => do
  let afterWord ← Text.afterWord? "line".toList cs
  let blanks := afterWord.takeWhile Text.isBlank
  if blanks.isEmpty then none
  else
    let (digits, _) ← digitRun? (afterWord.dropWhile Text.isBlank)
    return ⟨4 + blanks.length, digits, 0⟩

/-- `(12:4)`: a line and a column in parentheses. -/
def pairForm : Form := fun _ cs =>
  match cs with
  | '(' :: rest => do
      let (digits, afterLine) ← digitRun? rest
      match afterLine with
      | ':' :: more =>
          let (column, afterColumn) ← digitRun? more
          match afterColumn with
          | ')' :: _ => return ⟨1, digits, column.length + 2⟩
          | _ => none
      | _ => none
  | _ => none

/-- `: 12)`: a number between a colon and a closing parenthesis or a comma.  A colon after a digit
belongs to a column. -/
def colonForm : Form := fun before cs =>
  match cs with
  | ':' :: rest =>
      if before.any Text.isDigit then none
      else do
        let blanks := rest.takeWhile Text.isBlank
        let (digits, afterLine) ← digitRun? (rest.dropWhile Text.isBlank)
        let gap := afterLine.takeWhile Text.isBlank
        match afterLine.dropWhile Text.isBlank with
        | c :: _ =>
            if c == ')' || c == ',' then
              return ⟨1 + blanks.length, digits, gap.length + 1⟩
            else none
        | [] => none
  | _ => none

/-- `[12]`: a number in brackets. -/
def bracketForm : Form := fun _ cs =>
  match cs with
  | '[' :: rest => do
      let (digits, afterLine) ← digitRun? rest
      match afterLine with
      | ']' :: _ => return ⟨1, digits, 1⟩
      | _ => none
  | _ => none

/-- `:12:4`: a line and a column after colons, before a closing parenthesis, a blank or the end. -/
def frameForm : Form := fun _ cs =>
  match cs with
  | ':' :: rest => do
      let (digits, afterLine) ← digitRun? rest
      match afterLine with
      | ':' :: more =>
          let (column, afterColumn) ← digitRun? more
          if afterColumn.head?.all fun c => c == ')' || Text.isBlank c then
            return ⟨1, digits, column.length + 1⟩
          else none
      | _ => none
  | _ => none

/-- The forms in which a line is named. -/
def forms : List Form :=
  [wordForm, pairForm, colonForm, bracketForm, frameForm]

/-! ### Search -/

/-- The mentions of a form in a text from left to right, where `skip` characters belong to a find
before, `before` is the character before the text, and `start` its position. -/
def scanFrom (form : Form) : Nat → Option Char → Nat → List Char → List Mention
  | _, _, _, [] => []
  | skip + 1, _, start, c :: rest => scanFrom form skip (some c) (start + 1) rest
  | 0, before, start, c :: rest =>
      match form before (c :: rest) with
      | some f =>
          ⟨start + f.lead, f.digits⟩ :: scanFrom form (f.length - 1) (some c) (start + 1) rest
      | none => scanFrom form 0 (some c) (start + 1) rest

/-- The mentions of a form in a text. -/
def scan (text : List Char) (form : Form) : List Mention :=
  scanFrom form 0 none 0 text

/-- The mentions in a text, those of one form after those of another. -/
def mentions (text : List Char) : List Mention :=
  forms.flatMap (scan text)

/-- The mentions of positive numbers. -/
def positiveMentions (text : List Char) : List Mention :=
  (mentions text).filter fun m => m.value > 0

/-- Whether a text names a line in any of the forms. -/
def namesLine (text : List Char) : Bool :=
  !(mentions text).isEmpty

/-- Whether all numbers that a text mentions are short enough to be read. -/
def isReadable (text : List Char) : Bool :=
  (mentions text).all fun m => !m.isTooLong

/-- The positive numbers that a text mentions, each once, form by form. -/
def lineNumbers (text : List Char) : List Nat :=
  ((positiveMentions text).map Mention.value).eraseDups

/-! ### Order -/

/-- A mention put into a list in the order of their starts, unless one with its start is there. -/
def insertMention (m : Mention) : List Mention → List Mention
  | [] => [m]
  | x :: rest =>
      if m.start < x.start then m :: x :: rest
      else if m.start == x.start then x :: rest
      else x :: insertMention m rest

/-- The mentions of positive numbers, from left to right, each place once. -/
def spans (text : List Char) : List Mention :=
  (positiveMentions text).foldl (fun found m => insertMention m found) []

@[simp] theorem scan_nil (form : Form) : scan [] form = [] := rfl

@[simp] theorem mentions_nil : mentions [] = [] := rfl

end LineMap

end SketchHost
