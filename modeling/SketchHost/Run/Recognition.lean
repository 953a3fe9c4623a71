/-
**Recognition of sketches.**

Code is a sketch if it defines the hook `setup`: as a function, as a variable, or by an assignment.
The test looks at the text alone and at letters of any case.

* `definitionAt` — a definition of the hook at the head of a text;
* `isSketch` — a definition of the hook anywhere in a text.
-/

import SketchHost.Text.Blank
import SketchHost.Text.Caseless
import SketchHost.Text.Word

set_option relaxedAutoImplicit false
set_option autoImplicit false

namespace SketchHost

namespace Recognition

/-- The hook that makes code a sketch. -/
def hook : List Char := "setup".toList

/-- Whether no word character comes next. -/
def endsWord (cs : List Char) : Bool :=
  !Text.isWord? cs.head?

/-- What follows a word and the blanks after it, of which there is at least one. -/
def afterWordAndBlanks? (word cs : List Char) : Option (List Char) := do
  let rest ← Text.afterWord? word cs
  if rest.head?.any Text.isBlank then some (Text.trimLeft rest) else none

/-- A word and then the hook. -/
def declares (word : String) (cs : List Char) : Bool :=
  ((afterWordAndBlanks? word.toList cs).bind (Text.afterWord? hook)).any endsWord

/-- The hook and then an assignment sign; a comparison is none. -/
def assigns (cs : List Char) : Bool :=
  match (Text.afterWord? hook cs).map Text.trimLeft with
  | some ('=' :: rest) => rest.head? != some '='
  | _ => false

/-- A definition of the hook at the head of a text. -/
def definitionAt (cs : List Char) : Bool :=
  declares "function" cs || declares "const" cs || declares "let" cs || declares "var" cs
    || assigns cs

/-- A definition of the hook in a text that begins at the boundary of a word; `before` is the
character before the text. -/
def definesHook : Option Char → List Char → Bool
  | _, [] => false
  | before, c :: rest =>
      (Text.isBoundary before (some c) && definitionAt (c :: rest)) || definesHook (some c) rest

end Recognition

/-- Whether code defines the hook that makes it a sketch. -/
def isSketch (source : List Char) : Bool :=
  Recognition.definesHook none source

end SketchHost
