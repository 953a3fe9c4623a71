/-
**Handling messages.**

A message that has passed the guards goes to its handler.  What the handlers do is not the business of
the channel: it is given by a function from calls to reactions, and whatever a reaction is, the channel
goes on.

* `Channel.Call` — a call of a handler, with what it was called with;
* `Channel.Reaction` — how a handler comes back;
* `Channel.Verdict` — what became of a message;
* `Channel.handle` — one message;
* `Channel.fire` — the timers of the throttle.
-/

import SketchHost.Channel.Basic

set_option relaxedAutoImplicit false
set_option autoImplicit false

namespace SketchHost

namespace Channel

/-- A call of a handler. -/
inductive Call where
  | ready (id : Option String)
  | executionComplete (id : Option String)
  | resize (r : Resize.Report Resize.Size)
  | error (r : ErrorReport)
  /-- A registered handler, with a copy of the data. -/
  | named (name : String) (payload : Fields)
  /-- The handler of the runner, with a copy of the data. -/
  | runner (payload : Fields)
deriving Inhabited

/-- How a handler comes back. -/
inductive Reaction where
  | done
  | raised
  | rejected (reason : String)
deriving DecidableEq, Repr, Inhabited

/-- What became of a message. -/
inductive Verdict where
  /-- The channel was closed. -/
  | ignored
  /-- A guard dropped it. -/
  | dropped (d : Drop)
  /-- The handler rejected it. -/
  | rejected (reason : String)
  /-- The handler broke down. -/
  | threw (type : MessageType)
  | handled
deriving DecidableEq, Repr

/-- Whether a handler ran without a fault. -/
def Verdict.isHandled : Verdict → Bool
  | handled => true
  | _ => false

/-- The wording for a handler that broke down. -/
def threwMessage (type : MessageType) : String :=
  "handler for " ++ Text.quotedString type.name ++ " raised"

/-- The state after a message, what became of it, and the calls that it led to. -/
structure Handled (τ : Type) where
  after : Channel τ
  verdict : Verdict
  calls : List Call

/-- The verdict for a reaction. -/
def verdictOf (type : MessageType) : Reaction → Verdict
  | .done => .handled
  | .raised => .threw type
  | .rejected reason => .rejected reason

/-- The reason for which a handler rejects a payload without the shape of its type. -/
def shapeReason : String := Drop.shape.reason

variable {τ : Type} [Resize.Clock τ]

/-- A call of a handler that leaves the channel as it is. -/
def callOnce (react : Call → Reaction) (c : Channel τ) (type : MessageType) (call : Call) :
    Handled τ :=
  ⟨c, verdictOf type (react call), [call]⟩

/-- A payload for the callback of a type, which gets what the payload reports. -/
def callBack (react : Call → Reaction) (now : τ) (c : Channel τ) (type : MessageType)
    (payload : Fields) : Handled τ :=
  let misshapen : Handled τ := ⟨c, .rejected shapeReason, []⟩
  match type with
  | .ready =>
      match Message.notice payload with
      | .ok id => callOnce react c type (.ready id)
      | .error _ => misshapen
  | .executionComplete =>
      match Message.notice payload with
      | .ok id => callOnce react c type (.executionComplete id)
      | .error _ => misshapen
  | .error =>
      match ErrorReport.ofFields payload with
      | .ok r => callOnce react c type (.error r)
      | .error _ => misshapen
  | .resize =>
      match Message.size payload, c.throttle with
      | .error .overflow, _ => ⟨c, .threw type, []⟩
      | .error .shape, _ => misshapen
      | .ok _, none => ⟨c, .handled, []⟩
      | .ok r, some t =>
          let (o, _) := t.offer now r
          ⟨{ c with throttle := some o.after }, .handled, o.given.map .resize⟩

/-- A message that has passed the guards. -/
def dispatch (react : Call → Reaction) (now : τ) (c : Channel τ) (a : Accepted) : Handled τ :=
  match a.handler with
  | .named name => callOnce react c a.type (.named name a.payload)
  | .runner => callOnce react c a.type (.runner a.payload)
  | .callback => callBack react now c a.type a.payload

/-- One message.  A closed channel takes none, and a message that fails a guard changes nothing. -/
def handle (react : Call → Reaction) (now : τ) (e : Event) (c : Channel τ) : Handled τ :=
  if c.closed then ⟨c, .ignored, []⟩
  else
    match c.accept e with
    | .error d => ⟨c, .dropped d, []⟩
    | .ok a => c.dispatch react now a

/-- Runs the timers of the throttle: the state after it, how many there were, and the calls. -/
def fire (now : τ) (c : Channel τ) : Channel τ × Nat × List Call :=
  match c.throttle with
  | none => (c, 0, [])
  | some t =>
      let (o, count) := t.fire now
      ({ c with throttle := some o.after }, count, o.given.map .resize)

end Channel

end SketchHost
