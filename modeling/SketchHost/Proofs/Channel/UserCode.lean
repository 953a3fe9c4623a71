/-
**User code that fails.**

Handlers and callbacks are user code.  Whatever they do with a call, the operations of a channel take
from them only how they come back.  Here the same operations are taken step by step, as programs that
user code may break off: it may change the copy of the data that it was given, reject the message, or
raise a fault, inside a handler, inside a callback for sizes, and inside a timer.  What it raises leaves
the state as it is at this very point and breaks off everything up to the place where it is caught.

* `Channel.Raised`, `Channel.Conduct`, `Channel.UserCode` — what user code raises and does;
* `Channel.Letter`, `Channel.Scene` — a message that refers to data in memory, and a channel with the
  memory and the calls so far;
* `Channel.Operation`, `Channel.outcome` — programs that may be broken off, and what they come to;
* `Channel.Operation.submit`, `Channel.Operation.fire`, `Channel.Operation.receive` — a size, the timers
  and a message, step by step.
-/

import SketchHost.Proofs.Channel.Session

set_option relaxedAutoImplicit false
set_option autoImplicit false

namespace SketchHost

namespace Channel

/-! ### User code -/

/-- What user code raises: that the message is rejected, or any other fault. -/
inductive Raised where
  | rejection (reason : String)
  | fault
deriving DecidableEq, Repr

/-- What user code does with a call: what it makes of the data that it was given, and how it comes
back. -/
structure Conduct where
  leaves : Fields
  reaction : Reaction

/-- User code goes by the calls before and by the call itself. -/
abbrev UserCode := List Call → Call → Conduct

/-! ### Scenes -/

/-- A message whose data are the object at a place of the memory. -/
structure Letter where
  origin : String
  source : Option String
  place : Nat

/-- The message of a letter. -/
def Letter.event (m : Letter) (memory : List Datum) : Event :=
  ⟨m.origin, m.source, memory[m.place]?.getD .null⟩

/-- A channel with its clock, the objects in memory, and the calls of user code so far. -/
structure Scene (τ : Type) where
  now : τ
  channel : Channel τ
  memory : List Datum
  calls : List Call

variable {τ : Type}

/-- A channel with its throttle in another state. -/
def withThrottle (c : Channel τ) (t : Resize.Throttle τ Resize.Size) : Channel τ :=
  { c with throttle := some t }

theorem withThrottle_self {c : Channel τ} {t : Resize.Throttle τ Resize.Size}
    (h : c.throttle = some t) : c.withThrottle t = c := by
  rw [withThrottle, ← h]

/-! ### Operations -/

/-- A program on a scene.  What is raised breaks it off and leaves the scene as it is then. -/
abbrev Operation (τ : Type) := ExceptT Raised (StateM (Scene τ))

/-- What a program comes to, and the scene that it leaves. -/
def outcome {β : Type} (op : Operation τ β) (s : Scene τ) : Except Raised β × Scene τ :=
  op.run.run s

section Outcome

variable {β γ : Type} (s : Scene τ)

@[simp] theorem outcome_pure (b : β) : outcome (pure b : Operation τ β) s = (.ok b, s) := rfl

@[simp] theorem outcome_get : outcome (get : Operation τ (Scene τ)) s = (.ok s, s) := rfl

@[simp] theorem outcome_set (s' : Scene τ) : outcome (set s' : Operation τ PUnit) s = (.ok ⟨⟩, s') := rfl

@[simp] theorem outcome_modify (f : Scene τ → Scene τ) :
    outcome (modify f : Operation τ PUnit) s = (.ok ⟨⟩, f s) := rfl

@[simp] theorem outcome_bind (op : Operation τ β) (f : β → Operation τ γ) :
    outcome (op >>= f) s =
      match outcome op s with
      | (.ok b, s') => outcome (f b) s'
      | (.error e, s') => (.error e, s') := by
  simp only [outcome, ExceptT.run_bind, StateT.run_bind]
  rcases op.run.run s with ⟨_ | _, s'⟩ <;> rfl

@[simp] theorem outcome_map (f : β → γ) (op : Operation τ β) :
    outcome (f <$> op) s = ((outcome op s).1.map f, (outcome op s).2) := by
  rw [map_eq_pure_bind, outcome_bind]
  rcases outcome op s with ⟨_ | _, s'⟩ <;> rfl

@[simp] theorem outcome_tryCatch (op : Operation τ β) (f : Raised → Operation τ β) :
    outcome (tryCatch op f) s =
      match outcome op s with
      | (.ok b, s') => (.ok b, s')
      | (.error e, s') => outcome (f e) s' := by
  rcases h : op.run.run s with ⟨r, s'⟩
  have hop : StateT.run (op : StateM (Scene τ) (Except Raised β)) s = pure (r, s') := h
  simp only [outcome, tryCatch, tryCatchThe, MonadExceptOf.tryCatch, ExceptT.tryCatch, ExceptT.run_mk,
    StateT.run_bind, h, hop]
  cases r <;> rfl

end Outcome

namespace Operation

/-- A program that comes to a result without doing anything. -/
def ofResult {β : Type} (r : Except Raised β) : Operation τ β :=
  ExceptT.mk (pure r)

@[simp] theorem outcome_ofResult {β : Type} (r : Except Raised β) (s : Scene τ) :
    outcome (ofResult r) s = (r, s) := rfl

/-- What user code that comes back like this raises. -/
def resultOf : Reaction → Except Raised Unit
  | .done => .ok ()
  | .raised => .error .fault
  | .rejected reason => .error (.rejection reason)

/-- Runs user code for a call.  The call is noted, and the object at `own?`, which is the copy that the
code was given, is left as the code leaves it. -/
def call (u : UserCode) (own? : Option Nat) (c : Call) : Operation τ Unit := do
  let s ← get
  let conduct := u s.calls c
  let memory := match own? with
    | none => s.memory
    | some place => s.memory.set place (.ofValue (.record conduct.leaves))
  set { s with memory := memory, calls := s.calls ++ [c] }
  ofResult (resultOf conduct.reaction)

/-! ### Sizes, step by step -/

/-- Puts the throttle into another state. -/
def putThrottle (t : Resize.Throttle τ Resize.Size) : Operation τ Unit :=
  modify fun s => { s with channel := s.channel.withThrottle t }

/-- Gives out a report of a size.  The throttle is in its new state before the callback runs, and what
the callback raises is caught. -/
def deliver (u : UserCode) (own? : Option Nat) (t : Resize.Throttle τ Resize.Size)
    (r : Resize.Report Resize.Size) : Operation τ Unit := do
  let s ← get
  putThrottle (t.giveOut s.now r).after
  tryCatch (call u own? (.resize r)) fun _ => pure ()

/-- Runs the timer of a handle, if the loop still has it. -/
def runTimer (u : UserCode) (handle : Nat) : Operation τ Unit := do
  let s ← get
  match s.channel.throttle with
  | none => pure ()
  | some t =>
      if t.loop.handles.contains handle then
        let released := { t with loop := t.loop.cancel handle, timer := none, held := none }
        putThrottle released
        match t.held with
        | none => pure ()
        | some r => deliver u none released r
      else pure ()

/-- Runs timers one after the other. -/
def runTimers (u : UserCode) : List Nat → Operation τ Unit
  | [] => pure ()
  | handle :: rest => do
      runTimer u handle
      runTimers u rest

/-- Runs all timers that the loop has. -/
def fire (u : UserCode) : Operation τ Nat := do
  let s ← get
  match s.channel.throttle with
  | none => pure 0
  | some t =>
      runTimers u (t.liveTimers.map Resize.Timer.handle)
      pure t.liveTimers.length

variable [Resize.Clock τ]

/-- Offers a report of a size to the throttle. -/
def submit (u : UserCode) (own? : Option Nat) (t : Resize.Throttle τ Resize.Size)
    (r : Resize.Report Resize.Size) : Operation τ Bool := do
  let s ← get
  let t := t.dropOverdue s.now
  if t.isKnown r.size then
    putThrottle t
    pure false
  else if t.windowPassed s.now then
    let cleared := { t.dropTimer with held := none }
    putThrottle cleared
    deliver u own? cleared r
    pure true
  else
    putThrottle (t.hold s.now r)
    pure true

/-! ### Messages, step by step -/

/-- What a payload of another shape raises. -/
def misshapen {ε β : Type} (shape : Except ε β) : Operation τ β :=
  ofResult (shape.mapError fun _ => .rejection shapeReason)

/-- A payload for the callback of a type. -/
def callBack (u : UserCode) (own? : Option Nat) (type : MessageType) (payload : Fields) :
    Operation τ Unit :=
  match type with
  | .ready => do
      let id ← misshapen (Message.notice payload)
      call u own? (.ready id)
  | .executionComplete => do
      let id ← misshapen (Message.notice payload)
      call u own? (.executionComplete id)
  | .error => do
      let report ← misshapen (ErrorReport.ofFields payload)
      call u own? (.error report)
  | .resize =>
      match Message.size payload with
      | .error .overflow => throw .fault
      | .error .shape => throw (.rejection shapeReason)
      | .ok r => do
          let s ← get
          match s.channel.throttle with
          | none => pure ()
          | some t =>
              let _ ← submit u own? t r
              pure ()

/-- The handler of a message that has passed the guards. -/
def handler (u : UserCode) (own? : Option Nat) (a : Accepted) : Operation τ Unit :=
  match a.handler with
  | .named name => call u own? (.named name a.payload)
  | .runner => call u own? (.runner a.payload)
  | .callback => callBack u own? a.type a.payload

/-- The verdict on a message whose handler raised something. -/
def verdictFor (type : MessageType) : Raised → Verdict
  | .rejection reason => .rejected reason
  | .fault => .threw type

/-- Makes a copy of the data of a message, at a place of its own. -/
def copyOf (payload : Fields) : Operation τ Nat := do
  let s ← get
  set ({ s with memory := s.memory ++ [.ofValue (.record payload)] } : Scene τ)
  pure s.memory.length

/-- One message.  The handler gets a copy of its data, and what it raises is caught. -/
def receive (u : UserCode) (m : Letter) : Operation τ Verdict := do
  let s ← get
  if s.channel.closed then pure .ignored
  else
    match s.channel.accept (m.event s.memory) with
    | .error d => pure (.dropped d)
    | .ok a => do
        let own ← copyOf a.payload
        tryCatch
          (do
            handler u (some own) a
            pure .handled)
          fun raised => pure (verdictFor a.type raised)

end Operation

end Channel

end SketchHost
