/-
**Places in a text in YAML.**

Where a token stands decides what it means, so a place knows its line and its column.

* `Yaml.Place` — a place in a text;
* `Yaml.isBreak`, `Yaml.isGap` — the characters that end a line and those that end a word;
* `Yaml.Place.takeBreak?` — a line break and the place after it;
* `Yaml.Place.skipLine`, `Yaml.Place.skipToToken` — past the rest of a line, and past what lies before
  the next token.
-/

set_option relaxedAutoImplicit false
set_option autoImplicit false

namespace SketchHost

namespace Yaml

/-- A character that ends a line. -/
def isBreak (c : Char) : Bool :=
  c == '\n' || c == '\r' || c == '\u0085' || c == '\u2028' || c == '\u2029'

/-- A character that ends a word, or the end of the text. -/
def isGap : Option Char → Bool
  | none => true
  | some c => c == ' ' || c == '\t' || isBreak c

/-- A character that may stand in a text in YAML. -/
def isAllowed (c : Char) : Bool :=
  let n := c.toNat
  n == 0x09 || n == 0x0a || n == 0x0d || (0x20 ≤ n && n ≤ 0x7e) || n == 0x85
    || (0xa0 ≤ n && n ≤ 0xfffd) || 0x10000 ≤ n

/-- A place in a text: what follows, the line and the column, and the number of characters before. -/
structure Place where
  rest : List Char
  line : Nat
  column : Nat
  index : Nat
deriving Repr, Inhabited

namespace Place

/-- The start of a text. -/
def start (cs : List Char) : Place := ⟨cs, 0, 0, 0⟩

/-- The next character. -/
def next? (p : Place) : Option Char := p.rest.head?

/-- The character at a distance. -/
def at? (p : Place) (n : Nat) : Option Char := p.rest[n]?

/-- Past one character of a line.  A byte order mark takes up no column. -/
def step (p : Place) : Place :=
  match p.rest with
  | [] => p
  | c :: rest => ⟨rest, p.line, if c == '\ufeff' then p.column else p.column + 1, p.index + 1⟩

/-- Past a number of characters of a line. -/
def forward : Nat → Place → Place
  | 0, p => p
  | n + 1, p => forward n p.step

/-- The line break that comes next and the place after it.  The breaks of the ASCII standard and the
next-line character all count as a line feed. -/
def takeBreak? (p : Place) : Option (Char × Place) :=
  match p.rest with
  | '\r' :: '\n' :: rest => some ('\n', ⟨rest, p.line + 1, 0, p.index + 2⟩)
  | c :: rest =>
      if isBreak c then
        some (if c == '\u2028' || c == '\u2029' then c else '\n', ⟨rest, p.line + 1, 0, p.index + 1⟩)
      else none
  | [] => none

/-- Past the characters with a property that come next on the line. -/
def skipWhile (f : Char → Bool) (p : Place) : Place :=
  p.forward (p.rest.takeWhile f).length

/-- Past the spaces that come next. -/
def skipSpaces (p : Place) : Place :=
  p.skipWhile (· == ' ')

/-- Up to the end of the line. -/
def skipLine (p : Place) : Place :=
  p.skipWhile fun c => !isBreak c

/-- Past spaces and a comment. -/
def skipComment (p : Place) : Place :=
  let q := p.skipSpaces
  if q.next? == some '#' then q.skipLine else q

/-- Past spaces, comments and line breaks; with whether a line break was among them. -/
def skipToToken : Nat → Place → Place × Bool
  | 0, p => (p, false)
  | fuel + 1, p =>
      let q := p.skipComment
      match q.takeBreak? with
      | some (_, after) => ((skipToToken fuel after).1, true)
      | none => (q, false)

/-- Whether one of the two marks that separate documents comes next. -/
def atDocumentMark (p : Place) : Bool :=
  let three := p.rest.take 3
  (three == ['-', '-', '-'] || three == ['.', '.', '.']) && isGap (p.at? 3)

end Place

end Yaml

end SketchHost
