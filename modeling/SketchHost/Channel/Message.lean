/-
**Messages.**

The payloads that a frame sends, read as what they report: that it is ready, that a run is over, the
size of a canvas, or an error.

* `MessageType` — the types of messages;
* `Message.identity` — the identifier that a payload carries;
* `Message.size` — the report of a size;
* `ErrorReport`, `ErrorReport.ofValue`, `ErrorReport.text` — the report of an error;
* `ErrorReport.text?` — its text, if the line in it can be written out.
-/

import SketchHost.LineMap.Mention
import SketchHost.Resize.Session
import SketchHost.Value.Coerce

set_option relaxedAutoImplicit false
set_option autoImplicit false

namespace SketchHost

/-- The types of messages. -/
inductive MessageType where
  | ready
  | resize
  | error
  | executionComplete
deriving DecidableEq, Repr, Inhabited

namespace MessageType

/-- The name of a type. -/
def name : MessageType → String
  | ready => "ready"
  | resize => "resize"
  | error => "error"
  | executionComplete => "execution-complete"

/-- All types. -/
def all : List MessageType := [ready, resize, error, executionComplete]

/-- The type of a name. -/
def ofName? (s : String) : Option MessageType :=
  all.find? fun t => t.name == s

@[simp] theorem ofName?_name (t : MessageType) : ofName? t.name = some t := by
  cases t <;> decide

end MessageType

namespace Message

/-- The findings of a reader. -/
def findings {α : Type} : Except (List Finding) α → List Finding
  | .ok _ => []
  | .error fs => fs

/-- A field that may be left out, read as a sort; `dflt` stands for one that is. -/
def optionalField {α : Type} (name : String) (dflt : α) (read : Value → Except Misfit α)
    (fields : Fields) : Except (List Finding) α :=
  match Fields.find? name fields with
  | none => .ok dflt
  | some v => (read v).mapError fun m => [⟨[name], m⟩]

/-- A field that must be there. -/
def requiredField {α : Type} (name : String) (read : Value → Except Misfit α) (fields : Fields) :
    Except (List Finding) α :=
  match Fields.find? name fields with
  | none => .error [⟨[name], .missing⟩]
  | some v => (read v).mapError fun m => [⟨[name], m⟩]

/-- The field of an identifier in messages. -/
def idField : String := "sketchInstanceId"

/-- Another name of that field, which counts where the first one is left out. -/
def idFieldInFull : String := "sketch_instance_id"

/-- The identifier that a payload carries: a text or null. -/
def identity (fields : Fields) : Except (List Finding) (Option String) :=
  let name := if (Fields.find? idField fields).isSome then idField else idFieldInFull
  optionalField name none (Value.orNull Value.asText) fields

/-- The identifier of a message that only says that something has happened. -/
def notice (fields : Fields) : Except (List Finding) (Option String) :=
  match requiredField "type" Value.asText fields, identity fields with
  | .ok _, .ok id => .ok id
  | t, id => .error (findings t ++ findings id)

/-! ### Sizes -/

/-- Why a payload is no report of a size. -/
inductive SizeFault where
  /-- The payload has not the shape of a report. -/
  | shape
  /-- A whole number is beyond the range of binary64 numbers, so that the test of it breaks down. -/
  | overflow
deriving DecidableEq, Repr

/-- A side of a canvas: a number that is finite and not negative. -/
def side? (v : Value) : Option Number :=
  (Number.ofValue? v).filter fun n => n.isFinite && !n.isNegative

/-- Whether a field holds a whole number beyond the range of binary64 numbers. -/
def overflows (name : String) (fields : Fields) : Bool :=
  ((Fields.find? name fields).bind Number.ofValue?).any Number.isTooLarge

/-- The report of a size. -/
def size (fields : Fields) : Except SizeFault (Resize.Report Resize.Size) :=
  if overflows "width" fields || overflows "height" fields then .error .overflow
  else
    match notice fields, (Fields.find? "width" fields).bind side?,
        (Fields.find? "height" fields).bind side? with
    | .ok id, some w, some h => .ok ⟨⟨w, h⟩, id⟩
    | _, _, _ => .error .shape

end Message

/-! ### Errors -/

/-- The report of an error. -/
structure ErrorReport where
  type : String
  id : Option String
  message : Option String
  stack : Option String
  line : Option Int
deriving DecidableEq, Repr, Inhabited

namespace ErrorReport

/-- A report of a message alone. -/
def ofMessage (message : String) : ErrorReport :=
  ⟨MessageType.error.name, none, some message, none, none⟩

/-- The report that fields describe. -/
def ofFields (fields : Fields) : Except (List Finding) ErrorReport :=
  let text? := Value.orNull Value.asText
  let type := Message.optionalField "type" MessageType.error.name Value.asText fields
  let id := Message.identity fields
  let message := Message.optionalField "message" none text? fields
  let stack := Message.optionalField "stack" none text? fields
  let line := Message.optionalField "lineno" none (Value.orNull Value.asInt) fields
  match type, id, message, stack, line with
  | .ok type, .ok id, .ok message, .ok stack, .ok line => .ok ⟨type, id, message, stack, line⟩
  | _, _, _, _, _ =>
      .error (Message.findings type ++ Message.findings id ++ Message.findings message
        ++ Message.findings stack ++ Message.findings line)

/-- The report that a value describes. -/
def ofValue : Value → Except (List Finding) ErrorReport
  | .record fields => ofFields fields
  | _ => .error [⟨[], .notRecord⟩]

/-- What is shown where an error has no message. -/
def unknownError : String := "Unknown error"

/-- The message, or a stand-in where there is none. -/
def headline (r : ErrorReport) : String :=
  match r.message with
  | some m => if m.isEmpty then unknownError else m
  | none => unknownError

/-- A message and a stack on lines of its own, unless the stack is empty or says the same. -/
def withStack (message : String) (stack : Option String) : String :=
  match stack with
  | some s => if s.isEmpty || s == message then message else message ++ "\n\n" ++ s
  | none => message

/-- The text that is shown to the user: message and stack.  Where neither names a line, the line that
was reported with the error is added. -/
def text (r : ErrorReport) : List Char :=
  let body := (withStack r.headline r.stack).toList
  match r.line with
  | some n =>
      if n != 0 && !LineMap.namesLine body then
        body ++ " (line ".toList ++ Text.decimalInt n ++ [')']
      else body
  | none => body

/-- The text that is shown, if it can be written: a line that is added must be short enough. -/
def text? (r : ErrorReport) : Option (List Char) :=
  let body := (withStack r.headline r.stack).toList
  match r.line with
  | some n => if n == 0 || LineMap.namesLine body || Text.isShort n then some r.text else none
  | none => some r.text

end ErrorReport

end SketchHost
