/-
**Reports are given out a window apart.**

No timer runs before it is due.  Then the one timer of a throttle is due exactly one window after the
report that was given out last, and a report that is offered is given out at once only if the window has
passed, which takes the timer back.  A reset and a cancellation forget sizes and what is held, but not
the time.  So any two reports that are given out one after the other are at least a window apart.
Readings of the clock are exact numbers here, and it does not matter whether the clock goes back, whether
there is a loop, or what the window is.

* `Resize.exactClock` — exact numbers as readings of a clock;
* `Resize.Session.Punctual` — no timer runs before it is due;
* `Resize.Session.dated` — the reports that a run gives out, with the times at which it does;
* `Resize.Throttle.Paced` — the timer is due a window after the last report that was given out;
* `Resize.Throttle.Follows` — what was given out since came when the window had passed;
* `Resize.Session.follows_step` — every command keeps the pace;
* `Resize.Session.dated_spaced` — **reports are given out a window apart**.
-/

import SketchHost.Proofs.Resize.Timers
import Mathlib.Algebra.Order.Group.Int
import Mathlib.Algebra.Order.Group.Unbundled.Basic
import Mathlib.Data.List.Chain
import Mathlib.Tactic.Abel

set_option relaxedAutoImplicit false
set_option autoImplicit false

namespace SketchHost

namespace Resize

variable {τ α : Type}

/-! ### Exact time -/

/-- Exact numbers as readings of a clock. -/
instance (priority := low) exactClock [AddCommGroup τ] [LinearOrder τ] : Clock τ where
  since now before := now - before
  covers elapsed window := decide (window ≤ elapsed)
  left window elapsed := max 0 (window - elapsed)

/-- When a timer is due. -/
def Timer.dueAt [Add τ] (t : Timer τ) : τ :=
  t.setAt + t.delay

namespace Throttle

/-! ### The pace -/

@[simp] theorem dropTimer_window (t : Throttle τ α) : t.dropTimer.window = t.window := by
  rw [dropTimer]
  split <;> rfl

@[simp] theorem dropTimer_lastTime (t : Throttle τ α) : t.dropTimer.lastTime = t.lastTime := by
  rw [dropTimer]
  split <;> rfl

/-- The state in which a report is met differs only in what is held. -/
theorem dropOverdue_eq [Clock τ] (t : Throttle τ α) (now : τ) :
    t.dropOverdue now = { t with held := (t.dropOverdue now).held } := by
  rw [dropOverdue]
  split <;> rfl

section Pace

variable [Add τ] {window : τ}

/-- What holds of every throttle: the timers of its loop are the one that waits, and it is due a window
after the report that was given out last. -/
structure Paced (window : τ) (t : Throttle τ α) : Prop where
  sameWindow : t.window = window
  timers : t.liveTimers.map Timer.handle = t.timer.toList
  due : ∀ timer ∈ t.liveTimers, ∃ last ∈ t.lastTime, timer.dueAt = last + window

/-- Without timers a throttle is paced. -/
theorem paced_of_idle {t : Throttle τ α} (hwindow : t.window = window) (htimer : t.timer = none)
    (hlive : t.liveTimers = []) : t.Paced window :=
  ⟨hwindow, ownsTimers_of_idle htimer hlive, by simp [hlive]⟩

/-- A throttle before its first report. -/
theorem paced_make (source : LoopSource) : (make window source : Throttle τ α).Paced window :=
  paced_of_idle rfl rfl rfl

/-- The pace is a matter of the window, the timer and the times alone. -/
theorem Paced.congr {t u : Throttle τ α} (ht : t.Paced window) (hwindow : u.window = t.window)
    (hloop : u.loop = t.loop) (htimer : u.timer = t.timer) (hlast : u.lastTime = t.lastTime) :
    u.Paced window where
  sameWindow := hwindow.trans ht.sameWindow
  timers := by rw [liveTimers, hloop, htimer]; exact ht.timers
  due := by rw [liveTimers, hloop, hlast]; exact ht.due

/-- A throttle that keeps the pace has no other timers than its own. -/
theorem Paced.ownsTimers {t : Throttle τ α} (ht : t.Paced window) : t.OwnsTimers :=
  ht.timers

/-- A throttle whose timer is taken back, whatever else changes. -/
theorem Paced.of_dropTimer {t u : Throttle τ α} (ht : t.Paced window)
    (hwindow : u.window = t.window) (hloop : u.loop = t.dropTimer.loop) (htimer : u.timer = none) :
    u.Paced window :=
  paced_of_idle (hwindow.trans ht.sameWindow) htimer
    (by rw [liveTimers, hloop]; exact ht.ownsTimers.liveTimers_dropTimer)

/-- What an operation does at a time: it keeps the pace, and it gives out nothing, or one report when
the window has passed, and keeps the time of it. -/
structure Follows [LE τ] (window now : τ) (t : Throttle τ α) (o : Outcome τ α) : Prop where
  paced : o.after.Paced window
  given : (o.given = [] ∧ o.after.lastTime = t.lastTime) ∨
    ∃ r, o.given = [r] ∧ o.after.lastTime = some now ∧ ∀ last ∈ t.lastTime, last + window ≤ now

/-- Timers that run when they are due follow the pace: what is held is given out a window after the
last report. -/
theorem Paced.follows_fire [LE τ] {t : Throttle τ α} (ht : t.Paced window) {now : τ}
    (hdue : ∀ timer ∈ t.liveTimers, timer.dueAt ≤ now) :
    Follows window now t (t.fire now).1 := by
  cases h : t.timer with
  | none =>
      have hfire : (t.fire now).1 = ⟨t, []⟩ := by
        simp [fire, ht.ownsTimers.liveTimers_of_idle h, runTimers]
      rw [hfire]
      exact ⟨ht, Or.inl ⟨rfl, rfl⟩⟩
  | some handle =>
      obtain ⟨hone, hcancel⟩ := ht.ownsTimers.handles_of_waiting h
      have hfire : (t.fire now).1 = release now { t with loop := t.loop.cancel handle } := by
        simp [fire, map_handle_liveTimers, hone, runTimers, runTimer]
      -- the timer that runs is the one that is due a window after the last report
      have hpassed : ∀ last ∈ t.lastTime, last + window ≤ now := by
        intro last hlast
        obtain ⟨timer, htimer⟩ : ∃ timer, timer ∈ t.liveTimers := by
          have : t.liveTimers.map Timer.handle = [handle] := by rw [map_handle_liveTimers, hone]
          exact List.exists_mem_of_ne_nil _ fun hnil => by simp [hnil] at this
        obtain ⟨last', hlast', heq⟩ := ht.due timer htimer
        obtain rfl : last = last' := by simpa [Option.mem_def.1 hlast] using hlast'
        exact heq ▸ hdue timer htimer
      rw [hfire, release]
      cases hheld : t.held with
      | none => exact ⟨paced_of_idle ht.sameWindow rfl hcancel, Or.inl ⟨rfl, rfl⟩⟩
      | some r => exact ⟨paced_of_idle ht.sameWindow rfl hcancel, Or.inr ⟨r, rfl, rfl, hpassed⟩⟩

end Pace

/-! ### Reports in exact time -/

section Exact

variable [AddCommGroup τ] [LinearOrder τ] [IsOrderedAddMonoid τ] {window : τ}

/-- The window has passed if it is over by now. -/
theorem windowPassed_iff {t : Throttle τ α} {now : τ} :
    t.windowPassed now = true ↔ ∀ last ∈ t.lastTime, last + t.window ≤ now := by
  cases h : t.lastTime with
  | none => simp [windowPassed, elapsed, h]
  | some last =>
      simp only [windowPassed, elapsed, h, Option.map_some, Option.all_some, Clock.covers,
        Clock.since, decide_eq_true_eq, Option.mem_def, Option.some.injEq, forall_eq']
      exact le_sub_iff_add_le'

/-- A report that comes within the window is held, and the timer is due when the window is over. -/
theorem Paced.hold {t : Throttle τ α} (ht : t.Paced window) {now : τ} (r : Report α)
    (hearly : t.windowPassed now = false) :
    (t.hold now r).Paced window ∧ (t.hold now r).lastTime = t.lastTime := by
  cases h : t.timer with
  | some handle =>
      have heq : t.hold now r = { t with held := some r } := by simp [Throttle.hold, h]
      rw [heq]
      exact ⟨ht.congr rfl rfl rfl rfl, rfl⟩
  | none =>
      obtain ⟨last, hlast⟩ : ∃ last, t.lastTime = some last := by
        cases hlast : t.lastTime with
        | none => simp [windowPassed, elapsed, hlast] at hearly
        | some last => exact ⟨last, rfl⟩
      cases hloop : t.source.isThere with
      | false =>
          have heq : t.hold now r = { t with held := some r } := by
            simp [Throttle.hold, h, elapsed, hlast, setTimer, hloop]
          rw [heq]
          exact ⟨ht.congr rfl rfl rfl rfl, rfl⟩
      | true =>
          have heq : t.hold now r =
              { t with held := some r, timer := some t.loop.next,
                       loop := t.loop.callLater now (Clock.left t.window (now - last)) } := by
            simp [Throttle.hold, h, elapsed, hlast, setTimer, hloop, Clock.since]
          have hlive : t.loop.live = [] := ht.ownsTimers.liveTimers_of_idle h
          -- some of the window is left, so the timer is not due earlier than at its end
          have hrest : 0 ≤ window - (now - last) := by
            have hopen : ¬ last + t.window ≤ now := by
              have := mt windowPassed_iff.2 (by simpa using hearly)
              simpa [hlast] using this
            rw [ht.sameWindow, not_le] at hopen
            rw [sub_nonneg]
            exact (sub_lt_iff_lt_add'.2 hopen).le
          rw [heq]
          refine ⟨⟨ht.sameWindow, by simp [liveTimers, EventLoop.callLater, hlive], ?_⟩, rfl⟩
          intro timer htimer
          obtain rfl : timer = ⟨t.loop.next, now, Clock.left t.window (now - last)⟩ := by
            simpa [liveTimers, EventLoop.callLater, hlive] using htimer
          refine ⟨last, hlast, ?_⟩
          rw [ht.sameWindow]
          calc now + max 0 (window - (now - last))
              = now + (window - (now - last)) := by rw [max_eq_right hrest]
            _ = last + window := by abel

variable [BEq α]

/-- A report follows the pace: it is given out at once if the window has passed, and otherwise not. -/
theorem Paced.follows_offer {t : Throttle τ α} (ht : t.Paced window) (now : τ) (r : Report α) :
    Follows window now t (t.offer now r).1 := by
  have hmet : (t.dropOverdue now).Paced window := by
    rw [dropOverdue_eq]
    exact ht.congr rfl rfl rfl rfl
  have hlast : (t.dropOverdue now).lastTime = t.lastTime := by rw [dropOverdue_eq]
  simp only [offer]
  split
  · exact ⟨hmet, Or.inl ⟨rfl, hlast⟩⟩
  · split
    · next hpassed =>
        refine ⟨hmet.of_dropTimer (dropTimer_window _) rfl (dropTimer_timer _),
          Or.inr ⟨r, rfl, rfl, ?_⟩⟩
        rw [← hlast, ← hmet.sameWindow]
        exact windowPassed_iff.1 hpassed
    · next hearly =>
        obtain ⟨hpaced, hsame⟩ := hmet.hold r (by simpa using hearly)
        exact ⟨hpaced, Or.inl ⟨rfl, hsame.trans hlast⟩⟩

end Exact

end Throttle

/-! ### Runs -/

namespace Session

variable [BEq α]

/-- A command comes in time: the timers that it runs are due. -/
def IsTimely [Add τ] [LE τ] (s : Session τ α) : Command τ α → Prop
  | .fire => ∀ timer ∈ s.throttle.liveTimers, timer.dueAt ≤ s.now
  | _ => True

instance [Add τ] [LE τ] [DecidableLE τ] (s : Session τ α) (c : Command τ α) :
    Decidable (s.IsTimely c) :=
  match c with
  | .fire =>
      inferInstanceAs (Decidable (∀ timer ∈ s.throttle.liveTimers, timer.dueAt ≤ s.now))
  | .offer _ | .setClock _ | .runLoop _ | .reset | .cancel => isTrue trivial

/-- No timer runs before it is due. -/
def Punctual [Clock τ] [Add τ] [LE τ] (s : Session τ α) : List (Command τ α) → Prop
  | [] => True
  | c :: rest => s.IsTimely c ∧ Punctual (s.step c).1 rest

instance decidablePunctual [Clock τ] [Add τ] [LE τ] [DecidableLE τ] :
    (s : Session τ α) → (cs : List (Command τ α)) → Decidable (s.Punctual cs)
  | _, [] => isTrue trivial
  | s, c :: rest =>
      have := decidablePunctual (s.step c).1 rest
      inferInstanceAs (Decidable (s.IsTimely c ∧ (s.step c).1.Punctual rest))

/-- The reports that several commands give out, each with the time at which this happens. -/
def dated [Clock τ] (s : Session τ α) : List (Command τ α) → List (τ × Report α)
  | [] => []
  | c :: rest => (s.step c).2.given.map (s.now, ·) ++ dated (s.step c).1 rest

variable [AddCommGroup τ] [LinearOrder τ] [IsOrderedAddMonoid τ] {window : τ}

/-- Every command that comes in time follows the pace. -/
theorem follows_step {s : Session τ α} (hs : s.throttle.Paced window) {c : Command τ α}
    (hc : s.IsTimely c) :
    Throttle.Follows window s.now s.throttle ⟨(s.step c).1.throttle, (s.step c).2.given⟩ := by
  cases c with
  | offer r => exact hs.follows_offer s.now r
  | setClock now => exact ⟨hs, Or.inl ⟨rfl, rfl⟩⟩
  | runLoop b => exact ⟨hs.congr rfl rfl rfl rfl, Or.inl ⟨rfl, rfl⟩⟩
  | fire => exact hs.follows_fire hc
  | reset =>
      exact ⟨hs.of_dropTimer (Throttle.dropTimer_window _) rfl (Throttle.dropTimer_timer _),
        Or.inl ⟨rfl, Throttle.dropTimer_lastTime _⟩⟩
  | cancel =>
      exact ⟨hs.of_dropTimer (Throttle.dropTimer_window _) rfl (Throttle.dropTimer_timer _),
        Or.inl ⟨rfl, Throttle.dropTimer_lastTime _⟩⟩

/-- The time of the last report before a run and those of the reports in it are a window apart. -/
theorem times_spaced {s : Session τ α} (hs : s.throttle.Paced window) {cs : List (Command τ α)}
    (hcs : s.Punctual cs) :
    (s.throttle.lastTime.toList ++ (s.dated cs).map Prod.fst).IsChain fun a b => a + window ≤ b := by
  induction cs generalizing s with
  | nil => cases s.throttle.lastTime <;> simp [dated]
  | cons c rest ih =>
      obtain ⟨hpaced, hgiven⟩ := follows_step hs hcs.1
      have hrest := ih hpaced hcs.2
      dsimp only at hgiven
      rcases hgiven with ⟨hnone, hsame⟩ | ⟨r, hone, hnow, hpassed⟩
      · rw [hsame] at hrest
        simpa [dated, hnone] using hrest
      · -- the report comes between the one before the run and the next one
        rw [hnow, Option.toList_some] at hrest
        cases hlast : s.throttle.lastTime with
        | none => simpa [dated, hone] using hrest
        | some last => simpa [dated, hone] using ⟨hpassed last hlast, hrest⟩

/-- **Reports are given out a window apart.**  A throttle with any window, with a loop or without one, is
met by any commands, resets and cancellations among them, and no timer runs before it is due.  Then of two
reports that are given out one after the other, the second comes at least one window after the first. -/
theorem dated_spaced {now : τ} {source : LoopSource} {cs : List (Command τ α)}
    (hcs : (⟨now, .make window source⟩ : Session τ α).Punctual cs) :
    ((⟨now, .make window source⟩ : Session τ α).dated cs).IsChain fun a b => a.1 + window ≤ b.1 := by
  have htimes := times_spaced (Throttle.paced_make source) hcs
  exact (List.isChain_map Prod.fst).1 (by simpa [Throttle.make] using htimes)

/-- A canvas whose size is reported before and after a reset, within one window of a hundred.  The loop
ceases to run once the timer is set. -/
def interrupted : List (Command Int Nat) :=
  [.offer ⟨1, none⟩, .setClock 30, .offer ⟨2, none⟩, .setClock 40, .reset, .offer ⟨1, none⟩,
    .runLoop false, .setClock 100, .fire, .setClock 150, .offer ⟨3, none⟩, .setClock 230, .offer ⟨4, none⟩]

/-- Three reports are given out, the second by the timer that was set after the reset. -/
theorem dated_spaced_interrupted :
    let start : Session Int Nat := ⟨0, .make 100 (.found true)⟩
    start.Punctual interrupted ∧
      (start.dated interrupted).map (fun g => (g.1, g.2.size)) = [(0, 1), (100, 1), (230, 4)] ∧
      (start.dated interrupted).IsChain fun a b => a.1 + 100 ≤ b.1 := by
  intro start
  have hcs : start.Punctual interrupted := by decide
  exact ⟨hcs, by decide, dated_spaced hcs⟩

end Session

end Resize

end SketchHost
