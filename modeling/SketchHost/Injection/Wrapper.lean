/-
**Scripts for injection.**

The script that is put into the frame of a sketch: the bridge, a line that opens the wrapper, the
code on lines of its own, and the lines that close the wrapper.

* `Injection.Script` — a script in its three parts;
* `Injection.Script.text`, `Injection.Script.linesBefore` — its text, and the number of lines before
  the code;
* `Injection.forInstance` — the script of a sketch, which runs against an instance of the library;
* `Injection.sketch?` — the same for a namespace that may be no name;
* `Injection.plain` — the script of any other code.
-/

import SketchHost.Injection.Bridge
import SketchHost.Json.Writer
import SketchHost.LineMap.Mapper
import SketchHost.Text.Name

set_option relaxedAutoImplicit false
set_option autoImplicit false

namespace SketchHost

namespace Injection

/-- Code with the lines before and after it. -/
structure Script where
  head : List (List Char)
  code : List Char
  tail : List (List Char)
deriving DecidableEq, Repr

namespace Script

/-- The text of a script. -/
def text (s : Script) : List Char :=
  Text.joined ['\n'] (s.head ++ s.code :: s.tail)

/-- The number of lines before the code. -/
def linesBefore (s : Script) : Nat :=
  LineMap.numberOfLines (Text.joined ['\n'] s.head)

/-- The mapper from lines of the script to lines of a source. -/
def mapper (s : Script) (source : List Char) : LineMap.Mapper :=
  ⟨source, s.linesBefore⟩

end Script

/-! ### Wrappers -/

/-- The line that opens the wrapper of a sketch. -/
def sketchOpening (namespaceName : String) : List Char :=
  "  new window.p5(function (".toList ++ namespaceName.toList ++ ") \x7b".toList

/-- The lines that close the wrapper of a sketch; the container is written in JSON. -/
def sketchClosing (container : Value) : List (List Char) :=
  ["  \x7d, document.getElementById(".toList ++ Json.compact container
      ++ ") || undefined);".toList,
   "  post(\x7b type: 'execution-complete' \x7d);".toList,
   "\x7d)();".toList]

/-- The line that opens the wrapper of other code. -/
def plainOpening : List Char :=
  "  try \x7b".toList

/-- The lines that close the wrapper of other code. -/
def plainClosing : List (List Char) :=
  ["  \x7d catch (error) \x7b".toList,
   ("    post(\x7b type: 'error', message: String(error && error.message || error), "
     ++ "stack: error && error.stack \x7d);").toList,
   "  \x7d".toList,
   "  post(\x7b type: 'execution-complete' \x7d);".toList,
   "\x7d)();".toList]

/-- The instance cannot be bound to what is not a name. -/
structure BadNamespace where
  given : String
deriving DecidableEq, Repr

/-- The wording of a refusal. -/
def BadNamespace.message (b : BadNamespace) : String :=
  "Instance namespace must be an identifier, got " ++ Text.quotedString b.given

/-- The container of a sketch where none is given. -/
def defaultContainer : String := "sketch-container"

/-- The script of a sketch, which runs against a new instance of the library.  The namespace has to be
a name; the container is the identifier of the element that the sketch draws into. -/
def forInstance (code : List Char) (id namespaceName : String) (container : Value) : Script :=
  ⟨bridge id ++ [sketchOpening namespaceName], code, sketchClosing container⟩

/-- The script of a sketch, if the namespace is a name. -/
def sketch? (code : List Char) (id namespaceName containerId : String) :
    Except BadNamespace Script :=
  if Text.isName namespaceName.toList then
    .ok (forInstance code id namespaceName (.text containerId))
  else .error ⟨namespaceName⟩

/-- The script of code that is no sketch. -/
def plain (code : List Char) (id : String) : Script :=
  ⟨bridge id ++ [plainOpening], code, plainClosing⟩

end Injection

end SketchHost
