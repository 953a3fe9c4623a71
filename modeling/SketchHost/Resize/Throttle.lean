/-
**The throttle of size reports.**

A frame reports its size again and again.  The throttle gives out at most one report a window and
ends on the latest one: a report that comes too early is held until a timer runs, and a report of a
size that was given out last or is held already is dropped.

Sizes are of any type with an equality, and readings of any clock, so that the rules can be studied
apart from the arithmetic.

* `Resize.Report` — a size and the run that it belongs to;
* `Resize.LoopSource` — where a throttle takes its loop from;
* `Resize.Throttle` — the state of a throttle with the timers of its loop;
* `Resize.Outcome` — the state after an operation, and the reports that were given out;
* `Resize.Throttle.offer`, `fire`, `reset`, `cancel`, `runLoop` — the operations.
-/

import SketchHost.Resize.Clock

set_option relaxedAutoImplicit false
set_option autoImplicit false

namespace SketchHost

namespace Resize

/-! ### States -/

/-- A report of a size, with the identifier of the run that it belongs to. -/
structure Report (α : Type) where
  size : α
  id : Option String
deriving DecidableEq, Repr, Inhabited

/-- Where a throttle takes its loop from when it sets a timer: a given one, or the one that runs where
reports are offered, if one does at the time. -/
inductive LoopSource where
  | given
  | found (running : Bool)
deriving DecidableEq, Repr, Inhabited

namespace LoopSource

/-- Whether there is a loop to set a timer on. -/
def isThere : LoopSource → Bool
  | given => true
  | found running => running

/-- A loop begins or ceases to run where reports are offered. -/
def run (b : Bool) : LoopSource → LoopSource
  | given => given
  | found _ => found b

end LoopSource

/-- The state of a throttle: the window, where its loop comes from and the timers that it has set there,
the size that was given out last and when that was, the report that is held, and the handle of the timer
that waits for it. -/
structure Throttle (τ α : Type) where
  window : τ
  source : LoopSource
  loop : EventLoop τ
  last : Option α
  lastTime : Option τ
  held : Option (Report α)
  timer : Option Nat
deriving Repr, Inhabited

/-- The state after an operation, with the reports that it gave out. -/
structure Outcome (τ α : Type) where
  after : Throttle τ α
  given : List (Report α)

namespace Throttle

variable {τ α : Type}

/-- A throttle before its first report. -/
def make (window : τ) (source : LoopSource) : Throttle τ α :=
  ⟨window, source, .empty, none, none, none, none⟩

/-- Whether a timer waits. -/
def isWaiting (t : Throttle τ α) : Bool :=
  t.timer.isSome

/-- The timers of the loop that are neither run nor cancelled. -/
def liveTimers (t : Throttle τ α) : List (Timer τ) :=
  t.loop.live

/-! ### Steps -/

/-- Gives out a report. -/
def giveOut (now : τ) (r : Report α) (t : Throttle τ α) : Outcome τ α :=
  ⟨{ t with last := some r.size, lastTime := some now }, [r]⟩

/-- Takes back the timer. -/
def dropTimer (t : Throttle τ α) : Throttle τ α :=
  match t.timer with
  | none => t
  | some h => { t with timer := none, loop := t.loop.cancel h }

/-- Sets a timer, if there is a loop. -/
def setTimer (now delay : τ) (t : Throttle τ α) : Throttle τ α :=
  if t.source.isThere then
    { t with timer := some t.loop.next, loop := t.loop.callLater now delay }
  else t

/-- What a timer does when it runs: it gives out the report that is held. -/
def release (now : τ) (t : Throttle τ α) : Outcome τ α :=
  let t' := { t with timer := none, held := none }
  match t.held with
  | none => ⟨t', []⟩
  | some r => giveOut now r t'

/-! ### Operations -/

section Submit

variable [Clock τ] [BEq α]

/-- The time since a report was given out. -/
def elapsed (now : τ) (t : Throttle τ α) : Option τ :=
  t.lastTime.map (Clock.since now)

/-- Whether no report was given out within the window. -/
def windowPassed (now : τ) (t : Throttle τ α) : Bool :=
  (t.elapsed now).all fun e => Clock.covers e t.window

/-- The state in which a report is met: without a timer, a report that is held past the window is
given up for the new one. -/
def dropOverdue (now : τ) (t : Throttle τ α) : Throttle τ α :=
  if t.windowPassed now && t.timer.isNone then { t with held := none } else t

/-- Whether a size is the one that was given out last or the one that is held. -/
def isKnown (size : α) (t : Throttle τ α) : Bool :=
  t.last.any (fun s => size == s) || t.held.any (fun r => r.size == size)

/-- Holds a report until the timer runs, which is set if none waits. -/
def hold (now : τ) (r : Report α) (t : Throttle τ α) : Throttle τ α :=
  let t' := { t with held := some r }
  match t.timer, t.elapsed now with
  | none, some e => t'.setTimer now (Clock.left t.window e)
  | _, _ => t'

/-- Offers a report; the second part tells whether it was taken. -/
def offer (now : τ) (r : Report α) (t : Throttle τ α) : Outcome τ α × Bool :=
  let t := t.dropOverdue now
  if t.isKnown r.size then (⟨t, []⟩, false)
  else if t.windowPassed now then (giveOut now r { t.dropTimer with held := none }, true)
  else (⟨t.hold now r, []⟩, true)

end Submit

/-- Runs the timer of a handle, if the loop still has it. -/
def runTimer (now : τ) (handle : Nat) (t : Throttle τ α) : Outcome τ α :=
  if t.loop.handles.contains handle then release now { t with loop := t.loop.cancel handle }
  else ⟨t, []⟩

/-- Runs timers one after the other. -/
def runTimers (now : τ) : List Nat → Throttle τ α → Outcome τ α
  | [], t => ⟨t, []⟩
  | h :: rest, t =>
      let first := t.runTimer now h
      let others := runTimers now rest first.after
      ⟨others.after, first.given ++ others.given⟩

/-- Runs all timers that the loop has; the second part tells how many. -/
def fire (now : τ) (t : Throttle τ α) : Outcome τ α × Nat :=
  (t.runTimers now (t.liveTimers.map Timer.handle), t.liveTimers.length)

/-- Forgets the sizes that were met, so that the next report is taken whatever its size. -/
def reset (t : Throttle τ α) : Throttle τ α :=
  { t.dropTimer with last := none, held := none }

/-- Gives up the report that is held. -/
def cancel (t : Throttle τ α) : Throttle τ α :=
  { t.dropTimer with held := none }

/-- A loop begins or ceases to run where reports are offered; timers that were set stay. -/
def runLoop (b : Bool) (t : Throttle τ α) : Throttle τ α :=
  { t with source := t.source.run b }

/-! ### Windows -/

/-- A window must not be negative. -/
structure NegativeWindow where
deriving DecidableEq, Repr

/-- The wording of a refusal. -/
def NegativeWindow.message (_ : NegativeWindow) : String :=
  "window_ms must be >= 0"

/-- A throttle with a window in milliseconds. -/
def ofMilliseconds (ms : Number) (source : LoopSource) : Except NegativeWindow (Throttle Float α) :=
  if ms.isNegative then .error {} else .ok (make (secondsOf ms) source)

end Throttle

end Resize

end SketchHost
