/-
**Origins.**

A message is taken only from an origin on a list, or from such an origin with a number after a colon.

* `Origin.isAllowed` — whether a list admits an origin;
* `Origin.normalize` — an origin as it is kept on a list;
* `Origin.add`, `Origin.addAll` — a list with origins added, each once; wildcards are refused.
-/

import SketchHost.Text.Blank
import SketchHost.Text.Digit
import SketchHost.Text.Quoted

set_option relaxedAutoImplicit false
set_option autoImplicit false

namespace SketchHost

namespace Origin

/-! ### The guard -/

/-- A colon and at least one ASCII digit, and nothing else. -/
def isNumberSuffix : List Char → Bool
  | ':' :: digits => !digits.isEmpty && digits.all Text.isAsciiDigit
  | _ => false

/-- Whether an origin is `base`, or `base` with a colon and a number. -/
def extends? (base origin : String) : Bool :=
  origin == base
    || (base.toList.isPrefixOf origin.toList && isNumberSuffix (origin.toList.drop base.toList.length))

/-- Whether a list admits an origin. -/
def isAllowed (origin : String) (allowed : List String) : Bool :=
  allowed.any fun base => extends? base origin

@[simp] theorem isAllowed_nil (origin : String) : isAllowed origin [] = false := rfl

/-! ### Lists of origins -/

/-- A text without the slashes at its end. -/
def dropSlashes (cs : List Char) : List Char :=
  (cs.reverse.dropWhile (· == '/')).reverse

/-- An origin as it is kept: without blanks around it, and then without slashes at its end. -/
def normalize (origin : String) : String :=
  String.ofList (dropSlashes (Text.trim origin.toList))

/-- An origin that is not put on a list: it is empty, or it would stand for many. -/
structure Refused where
  origin : String
deriving DecidableEq, Repr

/-- The wording of a refusal. -/
def Refused.message (r : Refused) : String :=
  "Refusing wildcard or empty origin " ++ Text.quotedString r.origin

/-- Whether a normalized origin may be put on a list. -/
def isAcceptable (origin : String) : Bool :=
  !origin.isEmpty && !origin.toList.contains '*'

/-- A list with an origin added at its end, unless it is there. -/
def add (allowed : List String) (origin : String) : Except Refused (List String) :=
  let o := normalize origin
  if !isAcceptable o then .error ⟨o⟩
  else .ok (if allowed.contains o then allowed else allowed ++ [o])

/-- A list with several origins added. -/
def addAll (allowed : List String) : List String → Except Refused (List String)
  | [] => .ok allowed
  | o :: rest =>
      match add allowed o with
      | .error r => .error r
      | .ok more => addAll more rest

@[simp] theorem addAll_nil (allowed : List String) : addAll allowed [] = .ok allowed := rfl

end Origin

end SketchHost
