/-
**Runs of a throttle.**

A run is a list of commands: reports, changes of the clock, loops that begin or cease to run, timers that
run, and resets.

* `Resize.Command` — what can happen to a throttle;
* `Resize.Session` — a throttle and the reading of its clock;
* `Resize.Session.step`, `Resize.Session.run` — one command, and several.
-/

import SketchHost.Resize.Throttle

set_option relaxedAutoImplicit false
set_option autoImplicit false

namespace SketchHost

namespace Resize

/-- What can happen to a throttle. -/
inductive Command (τ α : Type) where
  | offer (r : Report α)
  | setClock (now : τ)
  | runLoop (b : Bool)
  | fire
  | reset
  | cancel
deriving Repr

/-- A throttle and the reading of its clock. -/
structure Session (τ α : Type) where
  now : τ
  throttle : Throttle τ α

/-- What a command comes back with. -/
inductive Reply where
  | taken (accepted : Bool)
  | fired (count : Nat)
  | done
deriving DecidableEq, Repr

/-- What one command did: what it came back with, and the reports that it gave out. -/
structure Trace (α : Type) where
  reply : Reply
  given : List (Report α)

namespace Session

variable {τ α : Type} [Clock τ] [BEq α]

/-- One command. -/
def step (s : Session τ α) : Command τ α → Session τ α × Trace α
  | .offer r =>
      let (o, accepted) := s.throttle.offer s.now r
      (⟨s.now, o.after⟩, ⟨.taken accepted, o.given⟩)
  | .setClock now => (⟨now, s.throttle⟩, ⟨.done, []⟩)
  | .runLoop b => (⟨s.now, s.throttle.runLoop b⟩, ⟨.done, []⟩)
  | .fire =>
      let (o, count) := s.throttle.fire s.now
      (⟨s.now, o.after⟩, ⟨.fired count, o.given⟩)
  | .reset => (⟨s.now, s.throttle.reset⟩, ⟨.done, []⟩)
  | .cancel => (⟨s.now, s.throttle.cancel⟩, ⟨.done, []⟩)

/-- The state after each of several commands, with what the command did. -/
def run (s : Session τ α) : List (Command τ α) → List (Session τ α × Trace α)
  | [] => []
  | c :: rest =>
      let next := s.step c
      next :: run next.1 rest

@[simp] theorem run_nil (s : Session τ α) : s.run [] = [] := rfl

/-- Every command leaves one state. -/
@[simp] theorem length_run (s : Session τ α) (cs : List (Command τ α)) :
    (s.run cs).length = cs.length := by
  induction cs generalizing s with
  | nil => rfl
  | cons c rest ih => simp [run, ih]

end Session

/-! ### Sizes -/

/-- The width and the height of a canvas. -/
structure Size where
  width : Number
  height : Number
deriving BEq, Inhabited

end Resize

end SketchHost
