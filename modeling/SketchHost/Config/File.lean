/-
**Files.**

A text file: what it is called and what it holds.  The line breaks of a file are line feeds whatever
they are on disk.

* `File` — a file, and `File.body`, its text with plain line breaks;
* `File.value?` — what a file in YAML denotes.
-/

import SketchHost.Yaml.Reader

set_option relaxedAutoImplicit false
set_option autoImplicit false

namespace SketchHost

/-- A text with every line break of the ASCII standard turned into a line feed. -/
def normalizeBreaks : List Char → List Char
  | '\r' :: '\n' :: rest => '\n' :: normalizeBreaks rest
  | '\r' :: rest => '\n' :: normalizeBreaks rest
  | c :: rest => c :: normalizeBreaks rest
  | [] => []

/-- A file: its path and its text. -/
structure File where
  path : String
  text : String
deriving DecidableEq, Repr

namespace File

/-- The text of a file with plain line breaks. -/
def body (f : File) : List Char :=
  normalizeBreaks f.text.toList

/-- What a file in YAML denotes. -/
def value? (f : File) : Option Value :=
  Yaml.read? f.body

end File

end SketchHost
