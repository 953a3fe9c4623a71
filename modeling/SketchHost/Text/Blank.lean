/-
**Blanks and line breaks.**

The characters that separate words in the text this library reads, and the operations that cut at
them.

* `Text.isWhite` — the white space of Unicode, and `Text.isBlank`, which has the four information
  separators too;
* `Text.trimLeft`, `Text.trimRight`, `Text.trim` — a text without the blanks at its ends;
* `Text.cutLine` — the first line of a text, up to any of the line breaks of Unicode, and what follows;
* `Text.splitAt` — the pieces of a text between the occurrences of one character;
* `Text.joined` — pieces with a separator between them.
-/

set_option relaxedAutoImplicit false
set_option autoImplicit false

namespace SketchHost

namespace Text

/-! ### Blanks -/

/-- A character of the Unicode property `White_Space`. -/
def isWhite (c : Char) : Bool :=
  let n := c.toNat
  (0x09 ≤ n && n ≤ 0x0d) || n == 0x20 || n == 0x85 || n == 0xa0 || n == 0x1680
    || (0x2000 ≤ n && n ≤ 0x200a) || n == 0x2028 || n == 0x2029 || n == 0x202f || n == 0x205f
    || n == 0x3000

/-- A blank: white space, or one of the four information separators. -/
def isBlank (c : Char) : Bool :=
  isWhite c || (0x1c ≤ c.toNat && c.toNat ≤ 0x1f)

/-- A text without the blanks at its start. -/
def trimLeft (cs : List Char) : List Char :=
  cs.dropWhile isBlank

/-- A text without the blanks at its end. -/
def trimRight (cs : List Char) : List Char :=
  (cs.reverse.dropWhile isBlank).reverse

/-- A text without the blanks at its ends. -/
def trim (cs : List Char) : List Char :=
  trimRight (trimLeft cs)

@[simp] theorem trimLeft_nil : trimLeft [] = [] := rfl

@[simp] theorem trimRight_nil : trimRight [] = [] := rfl

@[simp] theorem trim_nil : trim [] = [] := rfl

/-! ### Lines -/

/-- A character that ends a line: line feed, carriage return, the vertical separators, next line,
and the line and paragraph separators. -/
def isLineBreak (c : Char) : Bool :=
  let n := c.toNat
  (0x0a ≤ n && n ≤ 0x0d) || (0x1c ≤ n && n ≤ 0x1e) || n == 0x85 || n == 0x2028 || n == 0x2029

/-- The first line of a text and what follows its line break; a carriage return and a line feed
are one break.  `none` for the second part if the line is not ended. -/
def cutLine : List Char → List Char × Option (List Char)
  | [] => ([], none)
  | '\r' :: '\n' :: rest => ([], some rest)
  | c :: rest =>
      if isLineBreak c then ([], some rest)
      else
        let (line, after) := cutLine rest
        (c :: line, after)

/-- The first line of a text that is not empty. -/
def firstLine (cs : List Char) : List Char :=
  (cutLine cs).1

/-- The pieces of a text between the occurrences of `sep`; one more than there are occurrences. -/
def splitAt (sep : Char) : List Char → List (List Char)
  | [] => [[]]
  | c :: rest =>
      if c == sep then [] :: splitAt sep rest
      else
        match splitAt sep rest with
        | [] => [[c]]
        | piece :: more => (c :: piece) :: more

/-- There is always a first piece. -/
theorem splitAt_ne_nil (sep : Char) (cs : List Char) : splitAt sep cs ≠ [] := by
  cases cs with
  | nil => simp [splitAt]
  | cons c rest =>
      unfold splitAt
      split
      · simp
      · split <;> simp

/-- There is one piece more than there are separators. -/
theorem length_splitAt (sep : Char) (cs : List Char) :
    (splitAt sep cs).length = cs.count sep + 1 := by
  induction cs with
  | nil => rfl
  | cons c rest ih =>
      unfold splitAt
      by_cases h : c = sep
      · subst h; simp [ih]
      · have hb : (c == sep) = false := by simp [h]
        simp only [hb]
        rw [List.count_cons_of_ne h]
        cases hs : splitAt sep rest with
        | nil => exact absurd hs (splitAt_ne_nil sep rest)
        | cons piece more => rw [hs] at ih; simpa using ih

/-- Pieces of text with `sep` between them. -/
def joined (sep : List Char) : List (List Char) → List Char
  | [] => []
  | [piece] => piece
  | piece :: rest => piece ++ sep ++ joined sep rest

/-- A separator between a piece and further pieces. -/
theorem joined_cons (sep piece : List Char) {rest : List (List Char)} (h : rest ≠ []) :
    joined sep (piece :: rest) = piece ++ sep ++ joined sep rest := by
  cases rest with
  | nil => exact absurd rfl h
  | cons next more => rfl

/-- The pieces of `cs` between its line feeds. -/
def lines (cs : List Char) : List (List Char) :=
  splitAt '\n' cs

end Text

end SketchHost
