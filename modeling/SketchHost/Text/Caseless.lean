/-
**Words in any case.**

A word of ASCII letters is found in a text whatever the case of its letters.  The long s counts as an
s, the dotless and the dotted i as an i, and the sign of kelvin as a k.

* `Text.isLetter` — the spellings of a letter;
* `Text.afterWord?` — what follows a word at the head of a text.
-/

set_option relaxedAutoImplicit false
set_option autoImplicit false

namespace SketchHost

namespace Text

/-- The letters beyond ASCII that are a spelling of an ASCII letter. -/
def otherSpellings : List (Char × List Char) :=
  [('s', ['\u017f']), ('i', ['\u0130', '\u0131']), ('k', ['\u212a'])]

/-- Whether `c` is a spelling of the small letter `letter`. -/
def isLetter (letter c : Char) : Bool :=
  c.toLower == letter || ((otherSpellings.lookup letter).getD []).contains c

/-- What follows a word at the head of a text, the word being given in small letters. -/
def afterWord? : List Char → List Char → Option (List Char)
  | [], cs => some cs
  | _ :: _, [] => none
  | letter :: word, c :: cs => if isLetter letter c then afterWord? word cs else none

@[simp] theorem afterWord?_nil (cs : List Char) : afterWord? [] cs = some cs := by
  cases cs <;> rfl

end Text

end SketchHost
