/-
**The state of a throttle with a loop.**

A throttle that has a loop holds a report exactly as long as a timer of its own waits, and what it
holds differs from what it gave out last.  Every operation keeps this as long as there is a loop: one
that was given, or one that runs whenever a report is offered.

* `Resize.Throttle.Coherent` — what holds of every throttle that has had a loop from the start;
* `Resize.Throttle.Coherent.offer`, `fire`, `reset`, `cancel` — the operations keep it;
* `Resize.Session.after`, `Resize.Session.given` — the state after a run, and the reports that the
  run gave out;
* `Resize.LoopSource.Lasts` — a loop is there during a run;
* `Resize.Session.Looped` — a coherent throttle before a run during which a loop is there;
* `Resize.Session.Looped.step`, `Resize.Session.coherent_after` — every such run keeps it.
-/

import SketchHost.Resize.Session
import Mathlib.Data.List.Basic

set_option relaxedAutoImplicit false
set_option autoImplicit false

namespace SketchHost

namespace Resize

variable {τ α : Type}

namespace Throttle

/-! ### Timers -/

@[simp] theorem dropTimer_timer (t : Throttle τ α) : t.dropTimer.timer = none := by
  rw [dropTimer]
  split
  · assumption
  · rfl

@[simp] theorem dropTimer_held (t : Throttle τ α) : t.dropTimer.held = t.held := by
  rw [dropTimer]
  split <;> rfl

@[simp] theorem dropTimer_last (t : Throttle τ α) : t.dropTimer.last = t.last := by
  rw [dropTimer]
  split <;> rfl

@[simp] theorem dropTimer_source (t : Throttle τ α) : t.dropTimer.source = t.source := by
  rw [dropTimer]
  split <;> rfl

theorem setTimer_held (now delay : τ) (t : Throttle τ α) :
    (t.setTimer now delay).held = t.held := by
  rw [setTimer]
  split <;> rfl

theorem setTimer_last (now delay : τ) (t : Throttle τ α) :
    (t.setTimer now delay).last = t.last := by
  rw [setTimer]
  split <;> rfl

theorem setTimer_source (now delay : τ) (t : Throttle τ α) :
    (t.setTimer now delay).source = t.source := by
  rw [setTimer]
  split <;> rfl

/-- A report that is held replaces the one before it; nothing else changes but the timer. -/
theorem hold_held_last [Clock τ] (t : Throttle τ α) (now : τ) (r : Report α) :
    (t.hold now r).held = some r ∧ (t.hold now r).last = t.last := by
  rw [hold]
  split
  · exact ⟨setTimer_held .., setTimer_last ..⟩
  · exact ⟨rfl, rfl⟩

theorem hold_source [Clock τ] (t : Throttle τ α) (now : τ) (r : Report α) :
    (t.hold now r).source = t.source := by
  rw [hold]
  split
  · exact setTimer_source ..
  · rfl

theorem offer_source [Clock τ] [BEq α] (t : Throttle τ α) (now : τ) (r : Report α) :
    (t.offer now r).1.after.source = t.source := by
  have hmet : (t.dropOverdue now).source = t.source := by
    rw [dropOverdue]
    split <;> rfl
  simp only [offer]
  split
  · exact hmet
  · split
    · exact (dropTimer_source _).trans hmet
    · exact (hold_source ..).trans hmet

theorem runTimers_source (now : τ) (handles : List Nat) (t : Throttle τ α) :
    (t.runTimers now handles).after.source = t.source := by
  induction handles generalizing t with
  | nil => rfl
  | cons handle rest ih =>
      have hone : (t.runTimer now handle).after.source = t.source := by
        rw [runTimer]
        split
        · rw [release]
          split <;> rfl
        · rfl
      exact (ih _).trans hone

/-- The handles of the timers that run. -/
theorem map_handle_liveTimers (t : Throttle τ α) : t.liveTimers.map Timer.handle = t.loop.handles :=
  rfl

/-- What holds of every throttle that has had a loop from the start: there is one, its timers are the
one that waits, a report is held exactly while it waits, and the report that is held differs in size
from the one that was given out last. -/
structure Coherent [BEq α] (t : Throttle τ α) : Prop where
  loop : t.source.isThere = true
  timers : t.loop.handles = t.timer.toList
  waiting : t.held.isSome = t.timer.isSome
  differs : ∀ r ∈ t.held, ∀ s ∈ t.last, (r.size == s) = false

variable [BEq α]

/-- A throttle before its first report. -/
theorem coherent_make (window : τ) {source : LoopSource} (hsource : source.isThere = true) :
    (make window source : Throttle τ α).Coherent where
  loop := hsource
  timers := rfl
  waiting := rfl
  differs := by simp [make]

/-- Without a timer nothing is held. -/
theorem Coherent.held_eq_none {t : Throttle τ α} (ht : t.Coherent) (h : t.timer = none) :
    t.held = none := by
  have hw := ht.waiting
  rw [h] at hw
  exact Option.not_isSome_iff_eq_none.1 (by simp [hw])

/-- The loop has no timer once the timer that waits is taken back. -/
theorem Coherent.handles_dropTimer {t : Throttle τ α} (ht : t.Coherent) :
    t.dropTimer.loop.handles = [] := by
  have hh := ht.timers
  cases h : t.timer with
  | none => simpa [dropTimer, h] using hh
  | some handle =>
      rw [h, Option.toList_some] at hh
      simp [dropTimer, h, hh]

/-- A throttle whose timer is taken back and that holds nothing. -/
theorem Coherent.of_dropTimer {t u : Throttle τ α} (ht : t.Coherent) (hsource : u.source = t.source)
    (hloop : u.loop = t.dropTimer.loop) (htimer : u.timer = none) (hheld : u.held = none) :
    u.Coherent where
  loop := by rw [hsource, ht.loop]
  timers := by rw [hloop, ht.handles_dropTimer, htimer]; rfl
  waiting := by rw [htimer, hheld]; rfl
  differs := by simp [hheld]

/-! ### Operations -/

theorem Coherent.reset {t : Throttle τ α} (ht : t.Coherent) : t.reset.Coherent :=
  ht.of_dropTimer (dropTimer_source t) rfl (dropTimer_timer t) rfl

theorem Coherent.cancel {t : Throttle τ α} (ht : t.Coherent) : t.cancel.Coherent :=
  ht.of_dropTimer (dropTimer_source t) rfl (dropTimer_timer t) rfl

/-- Without a timer that waits, running the timers does nothing. -/
theorem Coherent.fire_of_idle {t : Throttle τ α} (ht : t.Coherent) (h : t.timer = none)
    (now : τ) : (t.fire now).1 = ⟨t, []⟩ := by
  have hnone : t.liveTimers.map Timer.handle = [] := by
    rw [map_handle_liveTimers, ht.timers, h]
    rfl
  simp only [fire, hnone, runTimers]

/-- A timer that waits gives out the report that is held. -/
theorem Coherent.fire_of_waiting {t : Throttle τ α} (ht : t.Coherent) {handle : Nat}
    (h : t.timer = some handle) (now : τ) :
    ∃ l r, EventLoop.handles l = [] ∧ t.held = some r ∧
      (t.fire now).1 = ⟨{ t with loop := l, timer := none, held := none, last := some r.size,
                                 lastTime := some now }, [r]⟩ := by
  have hh := ht.timers
  rw [h, Option.toList_some] at hh
  obtain ⟨r, hr⟩ : ∃ r, t.held = some r := by
    have hw := ht.waiting
    rw [h] at hw
    exact Option.isSome_iff_exists.1 hw
  refine ⟨t.loop.cancel handle, r, ?_, hr, ?_⟩
  · rw [EventLoop.handles_cancel, hh]
    simp
  · have hone : t.liveTimers.map Timer.handle = [handle] := by
      rw [map_handle_liveTimers, hh]
    simp only [fire, hone, runTimers, runTimer, hh, List.contains_cons, beq_self_eq_true,
      Bool.true_or, if_true, release, hr, giveOut, List.append_nil]

theorem Coherent.fire {t : Throttle τ α} (ht : t.Coherent) (now : τ) :
    (t.fire now).1.after.Coherent := by
  cases h : t.timer with
  | none =>
      rw [ht.fire_of_idle h]
      exact ht
  | some handle =>
      obtain ⟨l, r, hl, -, hfire⟩ := ht.fire_of_waiting h now
      rw [hfire]
      exact { loop := ht.loop, timers := hl, waiting := rfl, differs := by simp }

section Submit

variable [Clock τ]

/-- With a loop nothing is ever overdue: what is held has a timer. -/
theorem Coherent.dropOverdue_eq {t : Throttle τ α} (ht : t.Coherent) (now : τ) :
    t.dropOverdue now = t := by
  rw [dropOverdue]
  split
  · next h =>
      have hnone : t.timer = none := by
        simp only [Bool.and_eq_true, Option.isNone_iff_eq_none] at h
        exact h.2
      have hheld := ht.held_eq_none hnone
      rw [← hheld]
  · rfl

/-- A report of a size that is known changes nothing. -/
theorem Coherent.offer_of_known {t : Throttle τ α} (ht : t.Coherent) (now : τ) {r : Report α}
    (h : t.isKnown r.size = true) : t.offer now r = (⟨t, []⟩, false) := by
  simp only [Throttle.offer, ht.dropOverdue_eq, h, if_true]

/-- A report of a new size after the window is given out at once. -/
theorem Coherent.offer_of_passed {t : Throttle τ α} (ht : t.Coherent) {now : τ} {r : Report α}
    (h : t.isKnown r.size = false) (hp : t.windowPassed now = true) :
    t.offer now r = (giveOut now r { t.dropTimer with held := none }, true) := by
  simp only [Throttle.offer, ht.dropOverdue_eq, h, hp, if_true]
  rfl

/-- A report of a new size within the window is held. -/
theorem Coherent.offer_of_early {t : Throttle τ α} (ht : t.Coherent) {now : τ} {r : Report α}
    (h : t.isKnown r.size = false) (hp : t.windowPassed now = false) :
    t.offer now r = (⟨t.hold now r, []⟩, true) := by
  simp only [Throttle.offer, ht.dropOverdue_eq, h, hp]
  rfl

/-- After a report was held, the one timer of the loop waits for it. -/
theorem Coherent.hold_timers {t : Throttle τ α} (ht : t.Coherent) {now : τ} (r : Report α)
    (hp : t.windowPassed now = false) :
    (t.hold now r).timer.isSome ∧ (t.hold now r).loop.handles = (t.hold now r).timer.toList := by
  have hh := ht.timers
  cases h : t.timer with
  | some handle =>
      have heq : t.hold now r = { t with held := some r } := by simp [hold, h]
      rw [heq]
      exact ⟨by simp [h], hh⟩
  | none =>
      obtain ⟨e, he⟩ : ∃ e, t.elapsed now = some e := by
        cases he : t.elapsed now with
        | none => simp [windowPassed, he] at hp
        | some e => exact ⟨e, rfl⟩
      have heq : t.hold now r =
          { t with held := some r, timer := some t.loop.next,
                   loop := t.loop.callLater now (Clock.left t.window e) } := by
        simp [hold, h, he, setTimer, ht.loop]
      rw [heq]
      refine ⟨rfl, ?_⟩
      rw [EventLoop.handles_callLater, hh, h]
      rfl

theorem Coherent.offer {t : Throttle τ α} (ht : t.Coherent) (now : τ) (r : Report α) :
    (t.offer now r).1.after.Coherent := by
  cases hk : t.isKnown r.size with
  | true =>
      rw [ht.offer_of_known now hk]
      exact ht
  | false =>
      cases hp : t.windowPassed now with
      | true =>
          rw [ht.offer_of_passed hk hp]
          exact ht.of_dropTimer (dropTimer_source t) rfl (dropTimer_timer t) rfl
      | false =>
          rw [ht.offer_of_early hk hp]
          obtain ⟨hheld, hlast⟩ := hold_held_last t now r
          obtain ⟨hsome, htimers⟩ := ht.hold_timers r hp
          refine { loop := ?_, timers := htimers, waiting := ?_, differs := ?_ }
          · rw [hold_source, ht.loop]
          · rw [hheld, hsome]
            rfl
          · -- a report of the size that was given out last is dropped, so it is not held
            intro q hq s hs
            rw [hheld] at hq
            rw [hlast] at hs
            obtain rfl : r = q := by simpa using hq
            simp only [isKnown, Bool.or_eq_false_iff, Option.any_eq_false] at hk
            simpa using hk.1 s (by simpa using hs)

end Submit

end Throttle

/-! ### Runs -/

namespace Session

variable [Clock τ] [BEq α]

/-- The state after several commands. -/
def after (s : Session τ α) (cs : List (Command τ α)) : Session τ α :=
  cs.foldl (fun s c => (s.step c).1) s

/-- The reports that several commands gave out. -/
def given (s : Session τ α) (cs : List (Command τ α)) : List (Report α) :=
  (s.run cs).flatMap fun x => x.2.given

@[simp] theorem after_nil (s : Session τ α) : s.after [] = s := rfl

@[simp] theorem after_cons (s : Session τ α) (c : Command τ α) (cs : List (Command τ α)) :
    s.after (c :: cs) = (s.step c).1.after cs := rfl

theorem after_append (s : Session τ α) (cs ds : List (Command τ α)) :
    s.after (cs ++ ds) = (s.after cs).after ds := by
  simp [after, List.foldl_append]

@[simp] theorem given_nil (s : Session τ α) : s.given [] = [] := rfl

@[simp] theorem given_cons (s : Session τ α) (c : Command τ α) (cs : List (Command τ α)) :
    s.given (c :: cs) = (s.step c).2.given ++ (s.step c).1.given cs := by
  simp [given, run]

end Session

/-- A loop is there during several commands: it was given, or it runs and does not cease to. -/
def LoopSource.Lasts (source : LoopSource) (cs : List (Command τ α)) : Prop :=
  source = .given ∨ source = .found true ∧ ∀ c ∈ cs, c ≠ .runLoop false

namespace LoopSource

theorem Lasts.isThere {source : LoopSource} {cs : List (Command τ α)} (h : source.Lasts cs) :
    source.isThere = true := by
  rcases h with rfl | ⟨rfl, -⟩ <;> rfl

theorem Lasts.of_subset {source : LoopSource} {cs ds : List (Command τ α)} (h : source.Lasts cs)
    (hsub : ds ⊆ cs) : source.Lasts ds :=
  h.imp_right fun ⟨hrunning, hcs⟩ => ⟨hrunning, fun c hc => hcs c (hsub hc)⟩

end LoopSource

namespace Session

variable [Clock τ] [BEq α]

/-- Only the beginning and the end of a loop change where loops come from. -/
theorem source_step (s : Session τ α) (c : Command τ α) :
    (s.step c).1.throttle.source =
      match c with
      | .runLoop b => s.throttle.source.run b
      | _ => s.throttle.source := by
  cases c with
  | offer r => exact Throttle.offer_source s.throttle s.now r
  | fire => exact Throttle.runTimers_source s.now _ s.throttle
  | reset => exact Throttle.dropTimer_source s.throttle
  | cancel => exact Throttle.dropTimer_source s.throttle
  | _ => rfl

/-- A coherent throttle before several commands during which a loop is there. -/
structure Looped (s : Session τ α) (cs : List (Command τ α)) : Prop where
  coherent : s.throttle.Coherent
  lasts : s.throttle.source.Lasts cs

omit [Clock τ] in
/-- A throttle before its first report. -/
theorem looped_make (now window : τ) {source : LoopSource} {cs : List (Command τ α)}
    (h : source.Lasts cs) : (⟨now, .make window source⟩ : Session τ α).Looped cs :=
  ⟨Throttle.coherent_make window h.isThere, h⟩

namespace Looped

variable {s : Session τ α} {c : Command τ α} {cs ds : List (Command τ α)}

omit [Clock τ] in
theorem of_subset (h : s.Looped cs) (hsub : ds ⊆ cs) : s.Looped ds :=
  ⟨h.coherent, h.lasts.of_subset hsub⟩

omit [Clock τ] in
theorem of_append (h : s.Looped (cs ++ ds)) : s.Looped cs :=
  h.of_subset (List.subset_append_left cs ds)

/-- The loop is still there after one command. -/
theorem lasts_step (h : s.Looped (c :: cs)) : (s.step c).1.throttle.source.Lasts cs := by
  have hrest := h.lasts.of_subset (List.subset_cons_self c cs)
  rw [source_step]
  cases c with
  | runLoop b =>
      -- a loop that was given stays, and another one may only go on running
      rcases h.lasts with hgiven | ⟨hfound, hkept⟩
      · rw [hgiven] at hrest ⊢
        exact hrest
      · have hb : b = true := by simpa using hkept _ List.mem_cons_self
        rw [hfound] at hrest ⊢
        rw [hb]
        exact hrest
  | _ => exact hrest

/-- One command keeps a throttle coherent. -/
theorem step (h : s.Looped (c :: cs)) : (s.step c).1.Looped cs := by
  have hs := h.coherent
  refine ⟨?_, h.lasts_step⟩
  cases c with
  | offer r => exact hs.offer s.now r
  | setClock now => exact hs
  | runLoop b =>
      have hthere : (s.throttle.source.run b).isThere = true := h.lasts_step.isThere
      exact { loop := hthere, timers := hs.timers, waiting := hs.waiting, differs := hs.differs }
  | fire => exact hs.fire s.now
  | reset => exact hs.reset
  | cancel => exact hs.cancel

/-- Every run keeps a throttle coherent as long as there is a loop. -/
theorem after (h : s.Looped (cs ++ ds)) : (s.after cs).Looped ds := by
  induction cs generalizing s with
  | nil => exact h
  | cons c rest ih => exact ih h.step

end Looped

theorem coherent_after {s : Session τ α} {cs : List (Command τ α)} (h : s.Looped cs) :
    (s.after cs).throttle.Coherent := by
  rw [← List.append_nil cs] at h
  exact h.after.coherent

end Session

end Resize

end SketchHost
