/-
**The timers of a throttle.**

A throttle takes its timer back before it sets another one, and a timer that runs is the one that waits.
So its timers are at any time exactly the one that waits, if one does, whether there is a loop or not and
however often one begins or ceases to run.

* `Resize.Throttle.OwnsTimers` — the timers of the loop are the one that waits;
* `Resize.Throttle.OwnsTimers.handles_of_waiting`, `liveTimers_dropTimer` — what the loop has with a timer
  that waits, and once it is taken back;
* `Resize.Throttle.OwnsTimers.offer`, `fire`, `reset`, `cancel`, `runLoop` — the operations keep it;
* `Resize.Throttle.IsIdle` — nothing is held, and no timer could run: so it is after a cancellation, and
  stays until a report is offered.
-/

import SketchHost.Proofs.Resize.Coherence

set_option relaxedAutoImplicit false
set_option autoImplicit false

namespace SketchHost

namespace Resize

namespace Throttle

variable {τ α : Type}

/-- The timers of the loop are the one that waits, if there is one. -/
def OwnsTimers (t : Throttle τ α) : Prop :=
  t.liveTimers.map Timer.handle = t.timer.toList

theorem ownsTimers_of_idle {t : Throttle τ α} (htimer : t.timer = none) (hlive : t.liveTimers = []) :
    t.OwnsTimers := by
  rw [OwnsTimers, hlive, htimer]
  rfl

/-- A throttle before its first report. -/
theorem ownsTimers_make (window : τ) (source : LoopSource) :
    (make window source : Throttle τ α).OwnsTimers :=
  rfl

namespace OwnsTimers

theorem congr {t u : Throttle τ α} (ht : t.OwnsTimers) (hloop : u.loop = t.loop)
    (htimer : u.timer = t.timer) : u.OwnsTimers := by
  rw [OwnsTimers, liveTimers, hloop, htimer]
  exact ht

/-- Without a timer that waits the loop has no timers. -/
theorem liveTimers_of_idle {t : Throttle τ α} (ht : t.OwnsTimers) (h : t.timer = none) :
    t.liveTimers = [] := by
  rwa [OwnsTimers, h, Option.toList_none, List.map_eq_nil_iff] at ht

/-- A timer that waits is the only one of its loop. -/
theorem handles_of_waiting {t : Throttle τ α} (ht : t.OwnsTimers) {handle : Nat}
    (h : t.timer = some handle) : t.loop.handles = [handle] ∧ (t.loop.cancel handle).live = [] := by
  rw [OwnsTimers, map_handle_liveTimers, h, Option.toList_some] at ht
  refine ⟨ht, ?_⟩
  have hnone : (t.loop.cancel handle).handles = [] := by
    rw [EventLoop.handles_cancel, ht]
    simp
  simpa [EventLoop.handles] using hnone

/-- Once the timer is taken back none is left. -/
theorem liveTimers_dropTimer {t : Throttle τ α} (ht : t.OwnsTimers) : t.dropTimer.liveTimers = [] := by
  cases h : t.timer with
  | none =>
      rw [dropTimer, h]
      exact ht.liveTimers_of_idle h
  | some handle =>
      simpa [dropTimer, h, liveTimers] using (ht.handles_of_waiting h).2

/-- A throttle whose timer is taken back, whatever else changes. -/
theorem of_dropTimer {t u : Throttle τ α} (ht : t.OwnsTimers) (hloop : u.loop = t.dropTimer.loop)
    (htimer : u.timer = none) : u.OwnsTimers :=
  ownsTimers_of_idle htimer (by rw [liveTimers, hloop]; exact ht.liveTimers_dropTimer)

/-! ### Operations -/

theorem reset {t : Throttle τ α} (ht : t.OwnsTimers) : t.reset.OwnsTimers :=
  ht.of_dropTimer rfl (dropTimer_timer t)

theorem cancel {t : Throttle τ α} (ht : t.OwnsTimers) : t.cancel.OwnsTimers :=
  ht.of_dropTimer rfl (dropTimer_timer t)

theorem runLoop {t : Throttle τ α} (ht : t.OwnsTimers) (b : Bool) : (t.runLoop b).OwnsTimers :=
  ht

/-- The timers that run are the one that waits, if there is one. -/
theorem fire_eq {t : Throttle τ α} (ht : t.OwnsTimers) (now : τ) :
    (t.timer = none ∧ (t.fire now).1 = ⟨t, []⟩) ∨
      ∃ l, EventLoop.live l = [] ∧ (t.fire now).1 = release now { t with loop := l } := by
  cases h : t.timer with
  | none => exact Or.inl ⟨rfl, by simp [Throttle.fire, ht.liveTimers_of_idle h, runTimers]⟩
  | some handle =>
      obtain ⟨hone, hcancel⟩ := ht.handles_of_waiting h
      refine Or.inr ⟨t.loop.cancel handle, hcancel, ?_⟩
      simp [Throttle.fire, map_handle_liveTimers, hone, runTimers, runTimer, h]

theorem fire {t : Throttle τ α} (ht : t.OwnsTimers) (now : τ) :
    (t.fire now).1.after.OwnsTimers := by
  rcases ht.fire_eq now with ⟨-, hfire⟩ | ⟨l, hl, hfire⟩
  · rw [hfire]
    exact ht
  · rw [hfire, release]
    cases t.held <;> exact ownsTimers_of_idle rfl hl

section Submit

variable [Clock τ]

/-- A timer is set only if none waits. -/
theorem hold {t : Throttle τ α} (ht : t.OwnsTimers) (now : τ) (r : Report α) :
    (t.hold now r).OwnsTimers := by
  rw [Throttle.hold]
  split
  · next h he =>
      rw [setTimer]
      split
      · have hlive : t.loop.live = [] := ht.liveTimers_of_idle h
        simp [OwnsTimers, liveTimers, EventLoop.callLater, hlive]
      · exact ht.congr rfl rfl
  · exact ht.congr rfl rfl

theorem offer [BEq α] {t : Throttle τ α} (ht : t.OwnsTimers) (now : τ) (r : Report α) :
    (t.offer now r).1.after.OwnsTimers := by
  have hmet : (t.dropOverdue now).OwnsTimers := by
    rw [dropOverdue]
    split
    · exact ht.congr rfl rfl
    · exact ht
  simp only [Throttle.offer]
  split
  · exact hmet
  · split
    · exact hmet.of_dropTimer rfl (dropTimer_timer _)
    · exact hmet.hold now r

end Submit

end OwnsTimers

/-! ### Idle throttles -/

/-- Nothing is held, no timer waits, and the loop has none. -/
structure IsIdle (t : Throttle τ α) : Prop where
  held : t.held = none
  timer : t.timer = none
  live : t.liveTimers = []

/-- A cancellation leaves nothing that could be given out later. -/
theorem OwnsTimers.isIdle_cancel {t : Throttle τ α} (ht : t.OwnsTimers) : t.cancel.IsIdle :=
  ⟨rfl, dropTimer_timer t, ht.liveTimers_dropTimer⟩

namespace IsIdle

theorem ownsTimers {t : Throttle τ α} (ht : t.IsIdle) : t.OwnsTimers :=
  ownsTimers_of_idle ht.timer ht.live

theorem reset {t : Throttle τ α} (ht : t.IsIdle) : t.reset.IsIdle :=
  ⟨rfl, dropTimer_timer t, ht.ownsTimers.liveTimers_dropTimer⟩

theorem cancel {t : Throttle τ α} (ht : t.IsIdle) : t.cancel.IsIdle :=
  ht.ownsTimers.isIdle_cancel

theorem runLoop {t : Throttle τ α} (ht : t.IsIdle) (b : Bool) : (t.runLoop b).IsIdle :=
  ⟨ht.held, ht.timer, ht.live⟩

/-- No timer runs, and nothing is given out. -/
theorem fire_eq {t : Throttle τ α} (ht : t.IsIdle) (now : τ) : t.fire now = (⟨t, []⟩, 0) := by
  simp [fire, ht.live, runTimers]

end IsIdle

end Throttle

end Resize

end SketchHost
