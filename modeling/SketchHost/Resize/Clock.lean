/-
**Clocks and timers.**

A throttle reads a clock and asks an event loop for timers.  Of the readings it needs only how much
time lies between two of them, and how much of a window is left.

* `Clock` — what can be done with the readings of a clock;
* `secondsOf` — a number of milliseconds as a reading of the clock in seconds;
* `Timer`, `EventLoop` — the timers that a loop still has to run;
* `EventLoop.callLater`, `EventLoop.cancel` — a timer is added, or taken away.
-/

import SketchHost.Value.Number

set_option relaxedAutoImplicit false
set_option autoImplicit false

namespace SketchHost

namespace Resize

/-! ### Readings -/

/-- Arithmetic with readings of a clock and lengths of time. -/
class Clock (τ : Type) where
  /-- The time from the second reading to the first. -/
  since : τ → τ → τ
  /-- Whether a length of time is at least a window. -/
  covers : τ → τ → Bool
  /-- What is left of a window after a length of time, never below zero. -/
  left : τ → τ → τ

/-- The clock in seconds. -/
instance : Clock Float where
  since now before := now - before
  covers elapsed window := window ≤ elapsed
  left window elapsed := if window - elapsed > 0.0 then window - elapsed else 0.0

/-- A number of milliseconds in seconds. -/
def secondsOf (ms : Number) : Float :=
  ms.toFloat / 1000.0

/-! ### Timers -/

/-- A timer of a loop: its handle, when it was set, and how long it waits. -/
structure Timer (τ : Type) where
  handle : Nat
  setAt : τ
  delay : τ
deriving Repr, Inhabited

/-- The timers that are neither run nor cancelled, in the order in which they were set, and the next
handle. -/
structure EventLoop (τ : Type) where
  next : Nat
  live : List (Timer τ)
deriving Repr, Inhabited

namespace EventLoop

variable {τ : Type}

/-- A loop without timers. -/
def empty : EventLoop τ := ⟨0, []⟩

/-- The handles of the timers that are left. -/
def handles (l : EventLoop τ) : List Nat :=
  l.live.map Timer.handle

/-- The loop with one timer more, which gets the next handle. -/
def callLater (now delay : τ) (l : EventLoop τ) : EventLoop τ :=
  ⟨l.next + 1, l.live ++ [⟨l.next, now, delay⟩]⟩

/-- The loop without the timer of a handle. -/
def cancel (handle : Nat) (l : EventLoop τ) : EventLoop τ :=
  ⟨l.next, l.live.filter fun t => t.handle != handle⟩

@[simp] theorem handles_empty : (empty : EventLoop τ).handles = [] := rfl

@[simp] theorem handles_callLater (now delay : τ) (l : EventLoop τ) :
    (l.callLater now delay).handles = l.handles ++ [l.next] := by
  simp [callLater, handles]

@[simp] theorem handles_cancel (handle : Nat) (l : EventLoop τ) :
    (l.cancel handle).handles = l.handles.filter (· != handle) := by
  simp [cancel, handles, List.filter_map]
  rfl

end EventLoop

end Resize

end SketchHost
