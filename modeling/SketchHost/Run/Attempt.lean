/-
**Attempts.**

Each run of a sketch is an attempt of its own, with a number and an identifier.

* `Attempt` — an attempt whose script is injected, with its source;
* `Attempt.prepare` — the code and the script for a source;
* `Attempt.shownText` — a text of the frame as the user gets to see it;
* `LoadFault` — what the frame says of a script that it could not load;
* `Outcome` — how an attempt ended.
-/

import SketchHost.Channel.Message
import SketchHost.Injection.Wrapper
import SketchHost.InstanceMode.Conversion
import SketchHost.Run.Recognition

set_option relaxedAutoImplicit false
set_option autoImplicit false

namespace SketchHost

/-! ### Attempts -/

/-- An attempt whose script is injected.  The code is the converted source if this is a sketch, and
else the source itself. -/
structure Attempt where
  number : Nat
  id : String
  source : String
  code : String
  script : Injection.Script
deriving DecidableEq, Repr

namespace Attempt

/-- The mapper from lines of the script to lines of the source. -/
def mapper (a : Attempt) : LineMap.Mapper :=
  a.script.mapper a.source.toList

/-- A text of the frame with its lines mapped to the source.  A text that cannot be mapped is shown as
it is. -/
def shownText (a : Attempt) (text : List Char) : List Char :=
  match a.mapper.mapMessage text with
  | .ok mapped => mapped
  | .error _ => text

/-- The code for a source, and the script that runs it: a sketch is converted and runs against an
instance of the library, and any other code runs as it is. -/
def prepare (d : Dialect) (container id source : String) :
    Except Dialect.Failure (String × Injection.Script) :=
  if isSketch source.toList then
    match d.convert source with
    | .ok r =>
        .ok (r.code, Injection.forInstance r.code.toList id d.namespaceName (.text container))
    | .error f => .error f
  else .ok (source, Injection.plain source.toList id)

end Attempt

/-! ### Outcomes -/

/-- What the frame says of a script that it could not load. -/
structure LoadFault where
  message : String
  stack : Option String
deriving DecidableEq, Repr

/-- The message and the stack of a fault. -/
def LoadFault.text (f : LoadFault) : List Char :=
  (ErrorReport.withStack f.message f.stack).toList

/-- How an attempt ended. -/
inductive Outcome where
  /-- The source is a sketch that cannot be converted. -/
  | refused (failure : Dialect.Failure)
  /-- The script was loaded, perhaps too late: another attempt had begun, or the runner was closed. -/
  | loaded (code : String) (late : Bool)
  /-- The script could not be loaded; `text` is for the user. -/
  | failed (code : String) (text : List Char)
  /-- The script could not be loaded, but that was of no interest any more. -/
  | failedLate
deriving DecidableEq, Repr

namespace Outcome

/-- Whether the script was loaded. -/
def success : Outcome → Bool
  | loaded _ _ => true
  | _ => false

/-- Whether the end came too late. -/
def stale : Outcome → Bool
  | loaded _ late => late
  | failedLate => true
  | _ => false

/-- The text for the user. -/
def text? : Outcome → Option (List Char)
  | refused f => some ("Error: " ++ f.message).toList
  | failed _ text => some text
  | _ => none

/-- The code that was injected. -/
def code? : Outcome → Option String
  | loaded code _ => some code
  | failed code _ => some code
  | _ => none

end Outcome

end SketchHost
