/-
**Edits.**

An edit replaces a range of a sequence by other items.  A set of edits is applied in one pass from
left to right; edits whose ranges overlap are refused.

* `Edit` — one replacement;
* `Edit.before` — the order in which edits are applied;
* `splice` — a sequence with edits applied;
* `editText` — the same for the bytes of a text.
-/

set_option relaxedAutoImplicit false
set_option autoImplicit false

namespace SketchHost

/-- The replacement of the range from `start` to `stop` by `content`. -/
structure Edit (α : Type) where
  start : Nat
  stop : Nat
  content : List α
deriving DecidableEq, Repr

namespace Edit

variable {α : Type}

/-- The order of edits: by their start, and at the same start by their end. -/
def before (a b : Edit α) : Bool :=
  a.start < b.start || (a.start == b.start && a.stop ≤ b.stop)

end Edit

/-- Two edits cover a common position; `start` is where the later one begins. -/
structure Overlap where
  start : Nat
deriving DecidableEq, Repr

/-- The wording of a refusal. -/
def Overlap.message (o : Overlap) : String :=
  "Overlapping rewrite at byte " ++ toString o.start

variable {α : Type}

/-- The rest of a sequence from a position on, with edits in order applied. -/
def spliceFrom (data : List α) : Nat → List (Edit α) → Except Overlap (List α)
  | cursor, [] => .ok (data.drop cursor)
  | cursor, e :: rest =>
      if e.start < cursor then .error ⟨e.start⟩
      else
        match spliceFrom data e.stop rest with
        | .error o => .error o
        | .ok tail => .ok ((data.take e.start).drop cursor ++ e.content ++ tail)

/-- A sequence with edits applied.  Edits at the same range keep their order. -/
def splice (data : List α) (edits : List (Edit α)) : Except Overlap (List α) :=
  spliceFrom data 0 (edits.mergeSort Edit.before)

@[simp] theorem spliceFrom_nil (data : List α) (cursor : Nat) :
    spliceFrom data cursor [] = .ok (data.drop cursor) := rfl

@[simp] theorem splice_nil (data : List α) : splice data [] = .ok data := by
  simp [splice]

/-! ### Texts -/

/-- The replacement of a range of bytes of a text. -/
abbrev TextEdit := Edit UInt8

/-- The bytes of a text. -/
def bytesOf (s : String) : List UInt8 :=
  s.toUTF8.toList

/-- The text of a sequence of bytes, if it is one. -/
def textOfBytes? (bytes : List UInt8) : Option String :=
  String.fromUTF8? ⟨bytes.toArray⟩

/-- The replacement of a range of bytes by a text. -/
def textEdit (start stop : Nat) (s : String) : TextEdit :=
  ⟨start, stop, bytesOf s⟩

/-- Why edits cannot be applied to a text. -/
inductive EditFault where
  | overlap (o : Overlap)
  /-- The result is no text, because an edit divides a character. -/
  | notText
deriving DecidableEq, Repr

/-- A text with edits applied to its bytes. -/
def editText (source : String) (edits : List TextEdit) : Except EditFault String :=
  match splice (bytesOf source) edits with
  | .error o => .error (.overlap o)
  | .ok bytes =>
      match textOfBytes? bytes with
      | some s => .ok s
      | none => .error .notText

end SketchHost
