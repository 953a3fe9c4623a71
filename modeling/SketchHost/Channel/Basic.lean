/-
**The message channel.**

A channel stands between a frame, which may send anything, and the handlers of its owner.  A message
reaches a handler only if it passes all guards.

* `Channel` — the state of a channel;
* `Event` — a message that comes in;
* `Drop` — the guard that a message fails;
* `Channel.accept` — the guards, in their order;
* `Channel.register?`, `addOrigin`, `expectId`, `requireId`, `reset`, `close` — the other operations.
-/

import SketchHost.Channel.Datum
import SketchHost.Channel.Message
import SketchHost.Channel.Origin
import SketchHost.Config.Settings

set_option relaxedAutoImplicit false
set_option autoImplicit false

namespace SketchHost

/-! ### Events -/

/-- A message that comes in: where it comes from, the frame that sent it, and its data. -/
structure Event where
  origin : String
  source : Option String
  data : Datum
deriving Inhabited

/-- The frame that messages have to come from: a given one or none, or whatever a resolver says at the
time. -/
inductive Sender where
  | fixed (frame : Option String)
  | resolved (frame : Option String)
deriving DecidableEq, Repr, Inhabited

/-- The frame that messages have to come from at present. -/
def Sender.frame : Sender → Option String
  | fixed f => f
  | resolved f => f

/-- A change of what the resolver says. -/
def Sender.resolve (f : Option String) : Sender → Sender
  | fixed g => fixed g
  | resolved _ => resolved f

/-! ### Channels -/

/-- What is called for messages of a type. -/
inductive Handler where
  /-- The callback that the channel was built with. -/
  | callback
  /-- A handler that was registered under a name. -/
  | named (name : String)
  /-- The handler of the runner that owns the channel. -/
  | runner
deriving DecidableEq, Repr, Inhabited

/-- The state of a channel, with the throttle for sizes if it has a callback for them. -/
structure Channel (τ : Type) where
  allowed : List String
  sender : Sender
  expectedId : Option String
  requiresId : Bool
  handlers : List (MessageType × Handler)
  closed : Bool
  throttle : Option (Resize.Throttle τ Resize.Size)
deriving Inhabited

namespace Channel

variable {τ : Type}

/-! ### Guards -/

/-- The guard that a message fails. -/
inductive Drop where
  | origin (origin : String)
  | source
  | shape
  | missingId
  | unexpectedId (id : Option String)
  | unregistered (type : String)
  | copy (why : String)
deriving DecidableEq, Repr

/-- The name of the guard. -/
def Drop.reason : Drop → String
  | origin _ => "origin"
  | source => "source"
  | shape => "shape"
  | missingId => "identity"
  | unexpectedId _ => "identity"
  | unregistered _ => "type"
  | copy _ => "clone"

/-- What else there is to say. -/
def Drop.detail : Drop → String
  | origin o => o
  | source => ""
  | shape => ""
  | missingId => "missing sketchInstanceId"
  | unexpectedId none => "unexpected sketchInstanceId None"
  | unexpectedId (some id) => "unexpected sketchInstanceId " ++ Text.quotedString id
  | unregistered type => "unregistered message type " ++ Text.quotedString type
  | copy why => why

/-- The handler that is registered for a type. -/
def handler? (t : MessageType) (c : Channel τ) : Option Handler :=
  c.handlers.lookup t

/-- The identifier that data carry: a text that is not empty. -/
def sentId (data : Datum) : Option String :=
  (data.textAt? Message.idField).filter fun id => !id.isEmpty

/-- The handler of a type that is given by its name. -/
def handlerNamed? (c : Channel τ) (type : String) : Option (MessageType × Handler) :=
  (MessageType.ofName? type).bind fun t => (c.handler? t).map fun h => (t, h)

/-- What a handler gets for data, which are a record: the fields of a copy. -/
def payloadOf (data : Datum) : Except Drop Fields :=
  match data.clone with
  | .ok v => .ok (v.fields?.getD [])
  | .error why => .error (.copy why)

/-- A message that has passed all guards. -/
structure Accepted where
  type : MessageType
  handler : Handler
  payload : Fields

/-- The guards, in their order: origin, sender, shape, identifier, handler, copy. -/
def accept (c : Channel τ) (e : Event) : Except Drop Accepted :=
  if !Origin.isAllowed e.origin c.allowed then .error (.origin e.origin)
  else if c.sender.frame.isSome && e.source != c.sender.frame then .error .source
  else
    match e.data.textAt? "type" with
    | none => .error .shape
    | some type =>
        let id := sentId e.data
        if c.requiresId && id.isNone then .error .missingId
        else if c.expectedId.isSome && id != c.expectedId then .error (.unexpectedId id)
        else
          match c.handlerNamed? type with
          | none => .error (.unregistered type)
          | some (t, h) =>
              match payloadOf e.data with
              | .error d => .error d
              | .ok payload => .ok ⟨t, h, payload⟩

/-! ### Operations -/

/-- A type that no message has. -/
structure UnknownType where
  given : String
deriving DecidableEq, Repr

/-- The wording of a refusal. -/
def UnknownType.message (u : UnknownType) : String :=
  "Unknown message type " ++ Text.quotedString u.given

/-- Handlers with one for a type, in place of the one that was there. -/
def setHandler (t : MessageType) (h : Handler) (handlers : List (MessageType × Handler)) :
    List (MessageType × Handler) :=
  (t, h) :: handlers.filter fun entry => entry.1 != t

/-- Registers a handler for a type. -/
def register (t : MessageType) (h : Handler) (c : Channel τ) : Channel τ :=
  { c with handlers := setHandler t h c.handlers }

/-- Registers a handler for a type that is given by its name. -/
def register? (type : String) (h : Handler) (c : Channel τ) : Except UnknownType (Channel τ) :=
  match MessageType.ofName? type with
  | some t => .ok (c.register t h)
  | none => .error ⟨type⟩

/-- Admits messages from one origin more. -/
def addOrigin (origin : String) (c : Channel τ) : Except Origin.Refused (Channel τ) :=
  (Origin.add c.allowed origin).map fun allowed => { c with allowed := allowed }

/-- Admits only messages with an identifier; all if there is none. -/
def expectId (id : Option String) (c : Channel τ) : Channel τ :=
  { c with expectedId := id }

/-- Sets whether messages need an identifier. -/
def requireId (b : Bool) (c : Channel τ) : Channel τ :=
  { c with requiresId := b }

/-- Changes what the resolver of the sender says. -/
def resolve (frame : Option String) (c : Channel τ) : Channel τ :=
  { c with sender := c.sender.resolve frame }

/-- A loop begins or ceases to run where messages come in. -/
def runLoop (b : Bool) (c : Channel τ) : Channel τ :=
  { c with throttle := c.throttle.map (Resize.Throttle.runLoop b) }

/-- Forgets the sizes that were met, before a new run. -/
def reset (c : Channel τ) : Channel τ :=
  { c with throttle := c.throttle.map Resize.Throttle.reset }

/-- Closes the channel for good. -/
def close (c : Channel τ) : Channel τ :=
  { c with handlers := [], closed := true, throttle := c.throttle.map Resize.Throttle.cancel }

@[simp] theorem closed_close (c : Channel τ) : c.close.closed = true := rfl

@[simp] theorem closed_register (t : MessageType) (h : Handler) (c : Channel τ) :
    (c.register t h).closed = c.closed := rfl

end Channel

end SketchHost
