/-
**Building channels.**

* `Channel.Options` — what a channel is built from;
* `Channel.Options.withSettings` — the same, with settings for what is left out;
* `Channel.Options.build` — the channel;
* `Channel.BuildFault` — why there is none.
-/

import SketchHost.Channel.Handle

set_option relaxedAutoImplicit false
set_option autoImplicit false

namespace SketchHost

namespace Channel

/-- What a channel is built from.  Origins, the window of the throttle and the need of an identifier
may be left out; `callbacks` are the types that the channel has a callback for. -/
structure Options where
  origins : Option (List String)
  sender : Sender
  id : Option String
  requiresId : Option Bool
  throttleMs : Option Number
  callbacks : List MessageType
  loop : Resize.LoopSource

namespace Options

/-- Nothing is given but a loop. -/
def plain : Options :=
  ⟨none, .fixed none, none, none, none, [], .given⟩

/-- The options with settings for what is left out. -/
def withSettings (s : Settings) (o : Options) : Options :=
  { o with
    origins := some (o.origins.getD s.allowedOrigins)
    throttleMs := some (o.throttleMs.getD (.whole s.throttleMs))
    requiresId := some (o.requiresId.getD s.requireSketchId) }

/-- The origins of a new channel: those that are given, or the usual ones. -/
def startingOrigins (o : Options) : List String :=
  match o.origins with
  | some (first :: rest) => first :: rest
  | _ => Config.defaultOrigins

/-- The window of a throttle where none is given. -/
def defaultWindow : Number := .whole 150

end Options

/-- Why there is no channel. -/
inductive BuildFault where
  | origin (r : Origin.Refused)
  | window (w : Resize.Throttle.NegativeWindow)
deriving DecidableEq, Repr

/-- The wording of a fault. -/
def BuildFault.message : BuildFault → String
  | origin r => r.message
  | window w => w.message

/-- The throttle of a channel that has a callback for sizes. -/
def Options.throttle (o : Options) :
    Except BuildFault (Option (Resize.Throttle Float Resize.Size)) :=
  if o.callbacks.contains .resize then
    match Resize.Throttle.ofMilliseconds (o.throttleMs.getD Options.defaultWindow) o.loop with
    | .ok t => .ok (some t)
    | .error w => .error (.window w)
  else .ok none

/-- The channel that options describe. -/
def Options.build (o : Options) : Except BuildFault (Channel Float) := do
  let allowed ← (Origin.addAll [] o.startingOrigins).mapError .origin
  let throttle ← o.throttle
  return {
    allowed := allowed
    sender := o.sender
    expectedId := o.id
    requiresId := o.requiresId.getD false
    handlers := o.callbacks.map fun t => (t, .callback)
    closed := false
    throttle := throttle }

end Channel

end SketchHost
