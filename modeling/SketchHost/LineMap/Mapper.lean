/-
**From reported lines to lines of the source.**

The code that a runtime sees is the source with lines put in front of it, so a reported line is the
line of the source plus the number of these.

* `LineMap.Mapper` — the lines of a source, and how many lines stand before it;
* `LineMap.Mapper.lineFor` — the line of the source for a reported line;
* `LineMap.Mapper.mapMessage` — a text with every mention of a line mapped;
* `LineMap.Mapper.withContext` — the same with the lines of the source around the first mention.
-/

import SketchHost.LineMap.Mention
import SketchHost.Text.Edit

set_option relaxedAutoImplicit false
set_option autoImplicit false

namespace SketchHost

namespace LineMap

/-- A source, and the number of lines that stand before it. -/
structure Mapper where
  source : List Char
  injected : Nat
deriving DecidableEq, Repr

/-- Why there is no mapper, or no answer of one. -/
inductive MapFault where
  /-- The number of lines before the source is negative. -/
  | negativeInjected
  /-- A number has too many digits. -/
  | numberTooLong
deriving DecidableEq, Repr

/-- The wording of a fault, if it has one of its own. -/
def MapFault.message? : MapFault → Option String
  | negativeInjected => some "injected_lines must be >= 0"
  | numberTooLong => none

/-- The number of lines that a text takes up when it is joined to other lines. -/
def numberOfLines (text : List Char) : Nat :=
  (Text.lines text).length

/-- Every text takes up a line. -/
theorem numberOfLines_pos (text : List Char) : 0 < numberOfLines text := by
  simp [numberOfLines, Text.lines, Text.length_splitAt]

namespace Mapper

/-- The mapper of a source after a number of lines, which must not be negative. -/
def make? (source : List Char) (injected : Int) : Except MapFault Mapper :=
  if injected < 0 then .error .negativeInjected else .ok ⟨source, injected.toNat⟩

/-- The lines of the source. -/
def lines (m : Mapper) : List (List Char) :=
  Text.lines m.source

/-- The number of lines of the source. -/
def lineCount (m : Mapper) : Nat :=
  numberOfLines m.source

/-- The line of the source for a reported line: the first or the last one if there is no other. -/
def lineFor (m : Mapper) (line : Int) : Nat :=
  let adjusted := line - m.injected
  if adjusted < 1 then 1 else min adjusted.toNat m.lineCount

/-- The text of a line of the source; empty if there is no such line. -/
def lineText (m : Mapper) (line : Int) : List Char :=
  if line < 1 then [] else (m.lines[(line - 1).toNat]?).getD []

/-! ### Messages -/

/-- The edit that maps a mention. -/
def editOf (m : Mapper) (mention : Mention) : Edit Char :=
  ⟨mention.start, mention.stop, Text.decimal (m.lineFor mention.value)⟩

/-- A text with every mention of a line mapped, whatever the length of its numbers. -/
def renumber (m : Mapper) (text : List Char) : List Char :=
  match splice text ((spans text).map m.editOf) with
  | .ok mapped => mapped
  | .error _ => text

/-- A text with every mention of a line mapped. -/
def mapMessage (m : Mapper) (text : List Char) : Except MapFault (List Char) :=
  if isReadable text then .ok (m.renumber text) else .error .numberTooLong

/-- The numbers that a text mentions. -/
def extract (text : List Char) : Except MapFault (List Nat) :=
  if isReadable text then .ok (lineNumbers text) else .error .numberTooLong

/-- The lines of the source for the numbers that a text mentions. -/
def extractMapped (m : Mapper) (text : List Char) : Except MapFault (List Nat) :=
  (extract text).map fun ns => ns.map fun (n : Nat) => m.lineFor n

/-! ### Excerpts -/

/-- A number, right-aligned in three columns. -/
def lineLabel (n : Nat) : List Char :=
  let digits := Text.decimal n
  List.replicate (3 - digits.length) ' ' ++ digits

/-- A line of the source in an excerpt; the line in focus carries a mark. -/
def row (m : Mapper) (focus n : Nat) : List Char :=
  (if n == focus then ['>', ' '] else [' ', ' ']) ++ lineLabel n ++ " | ".toList ++ m.lineText n

/-- The numbers of the lines at a distance of at most `reach` from the line in focus. -/
def window (m : Mapper) (focus : Nat) (reach : Int) : List Nat :=
  let first := (max 1 ((focus : Int) - reach)).toNat
  let last := (min (m.lineCount : Int) ((focus : Int) + reach)).toNat
  List.range' first (last + 1 - first)

/-- The lines of the source around the line in focus. -/
def excerpt (m : Mapper) (focus : Nat) (reach : Int) : List Char :=
  Text.joined ['\n'] ((m.window focus reach).map (m.row focus))

/-- A text with every mention of a line mapped, followed by the lines of the source around the
smallest number that it mentions.  A text without a mention is left as it is. -/
def withContext (m : Mapper) (text : List Char) (reach : Int) : Except MapFault (List Char) := do
  match ← extract text with
  | [] => return text
  | n :: ns =>
      let focus := m.lineFor (ns.foldl min n : Nat)
      return m.renumber text ++ ['\n', '\n'] ++ m.excerpt focus reach

end Mapper

end LineMap

end SketchHost
