/-
**A throttle without a loop.**

No loop was given, and none runs where reports are offered.  So no timer can be set, and what is held is
given out by nobody: only a report that is offered leads to anything.  A report that comes when the
window is over takes the place of whatever is held, and it has to be compared with the size that was given
out last alone.  If the size that is held were looked at as well, a report of that size would be dropped,
and the size would never be given out.

* `Resize.Throttle.Loopless` — a throttle has no loop, and no timer waits;
* `Resize.Throttle.Loopless.offer_eq` — what a report does to it, in all cases;
* `Resize.Throttle.Lands` — a report leaves nothing held, and its size as the last one;
* `Resize.Session.IsOver` — the window has passed since the last report that a run gave out;
* `Resize.Session.loopless_step`, `Resize.Session.lastTime_after` — single commands, and runs;
* `Resize.Session.lands_without_loop` — **without a loop there are no timers, only reports that are offered
  are given out, and a report lands whenever the window is over**.
-/

import SketchHost.Proofs.Resize.Spacing
import SketchHost.Proofs.Resize.TrailingEdge

set_option relaxedAutoImplicit false
set_option autoImplicit false

namespace SketchHost

namespace Resize

variable {τ α : Type}

namespace Throttle

/-! ### States -/

/-- A throttle has no loop, no timer waits, and none was left on a loop that ran before. -/
structure Loopless (t : Throttle τ α) : Prop where
  source : t.source = .found false
  timer : t.timer = none
  liveTimers_eq : t.liveTimers = []

theorem loopless_make (window : τ) : (make window (.found false) : Throttle τ α).Loopless :=
  ⟨rfl, rfl, rfl⟩

namespace Loopless

variable {t : Throttle τ α}

/-- There is no timer to take back. -/
theorem dropTimer_eq (ht : t.Loopless) : t.dropTimer = t := by
  rw [dropTimer, ht.timer]

theorem fire_eq (ht : t.Loopless) (now : τ) : t.fire now = (⟨t, []⟩, 0) := by
  simp [fire, ht.liveTimers_eq, runTimers]

theorem reset (ht : t.Loopless) : t.reset.Loopless := by
  rw [Throttle.reset, ht.dropTimer_eq]
  exact ⟨ht.source, ht.timer, ht.liveTimers_eq⟩

theorem cancel (ht : t.Loopless) : t.cancel.Loopless := by
  rw [Throttle.cancel, ht.dropTimer_eq]
  exact ⟨ht.source, ht.timer, ht.liveTimers_eq⟩

/-- A loop that ceases to run leaves the throttle as it is. -/
theorem runLoop_eq (ht : t.Loopless) : t.runLoop false = t := by
  rw [runLoop, ht.source]
  exact congrArg (fun source => { t with source := source }) ht.source.symm

variable [Clock τ]

/-- A report that is held sets no timer. -/
theorem hold_eq (ht : t.Loopless) (now : τ) (r : Report α) : t.hold now r = { t with held := some r } := by
  rw [hold]
  split
  · rw [setTimer]
    simp [ht.source, LoopSource.isThere]
  · rfl

variable [BEq α]

/-- What a report does.  When the window is over, only the size that was given out last is looked at, and
nothing is held afterwards; before that, a report of a new size is held. -/
theorem offer_eq (ht : t.Loopless) (now : τ) (r : Report α) :
    t.offer now r =
      if t.windowPassed now then
        if t.last.any (fun s => r.size == s) then (⟨{ t with held := none }, []⟩, false)
        else (giveOut now r { t with held := none }, true)
      else if t.isKnown r.size then (⟨t, []⟩, false)
      else (⟨{ t with held := some r }, []⟩, true) := by
  cases hp : t.windowPassed now with
  | true =>
      have hmet : t.dropOverdue now = { t with held := none } := by simp [dropOverdue, hp, ht.timer]
      have hempty : ({ t with held := none } : Throttle τ α).Loopless := ⟨ht.source, ht.timer, ht.liveTimers_eq⟩
      have hpassed : ({ t with held := none } : Throttle τ α).windowPassed now = true := hp
      simp only [offer, hmet, isKnown, hpassed, hempty.dropTimer_eq, Option.any_none, Bool.or_false,
        if_true]
  | false =>
      have hmet : t.dropOverdue now = t := by simp [dropOverdue, hp]
      simp only [offer, hmet, hp, ht.hold_eq, Bool.false_eq_true, if_false]

theorem offer (ht : t.Loopless) (now : τ) (r : Report α) : (t.offer now r).1.after.Loopless := by
  rw [ht.offer_eq]
  split
  · split <;> exact ⟨ht.source, ht.timer, ht.liveTimers_eq⟩
  · split
    · exact ht
    · exact ⟨ht.source, ht.timer, ht.liveTimers_eq⟩

end Loopless

variable [BEq α]

/-- A report lands: nothing is held afterwards, the size that was given out last is that of the report, and
the report is given out exactly if this was not so before. -/
structure Lands (t : Throttle τ α) (r : Report α) (o : Outcome τ α) : Prop where
  held : o.after.held = none
  last : ∃ size, o.after.last = some size ∧ SameSize size r.size
  given : o.given = if t.last.any (fun s => r.size == s) then [] else [r]

/-- A report lands when the window is over, whatever was held before. -/
theorem Loopless.lands [Clock τ] {t : Throttle τ α} (ht : t.Loopless) {now : τ} (r : Report α)
    (hp : t.windowPassed now = true) : t.Lands r (t.offer now r).1 := by
  rw [ht.offer_eq, hp, if_pos rfl]
  cases hknown : t.last.any (fun s => r.size == s) with
  | true =>
      obtain ⟨size, hlast, heq⟩ := (Option.any_eq_true _ _).1 hknown
      exact ⟨rfl, ⟨size, hlast, Or.inr (Or.inr heq)⟩, by simp [hknown]⟩
  | false => exact ⟨rfl, ⟨r.size, rfl, Or.inl rfl⟩, by simp [hknown, giveOut]⟩

end Throttle

/-! ### Runs -/

namespace Session

variable [Clock τ] [BEq α]

/-- The window has passed since the last report that several commands gave out, or they gave out none. -/
def IsOver (s : Session τ α) (cs : List (Command τ α)) : Prop :=
  ∀ latest ∈ (s.dated cs).getLast?,
    Clock.covers (Clock.since (s.after cs).now latest.1) s.throttle.window = true

/-- A command leaves a throttle without a loop so, with the same window.  It gives out nothing and leaves
the time of the last report as it is, or it offers the one report that is given out, at that time. -/
theorem loopless_step {s : Session τ α} (hs : s.throttle.Loopless) {c : Command τ α}
    (hc : c ≠ .runLoop true) :
    (s.step c).1.throttle.Loopless ∧ (s.step c).1.throttle.window = s.throttle.window ∧
      (((s.step c).2.given = [] ∧ (s.step c).1.throttle.lastTime = s.throttle.lastTime) ∨
        ∃ r, c = .offer r ∧ (s.step c).2.given = [r] ∧ (s.step c).1.throttle.lastTime = some s.now) := by
  cases c with
  | offer r =>
      refine ⟨hs.offer s.now r, ?_⟩
      simp only [step, hs.offer_eq]
      split
      · split
        · exact ⟨rfl, Or.inl ⟨rfl, rfl⟩⟩
        · exact ⟨rfl, Or.inr ⟨r, rfl, rfl, rfl⟩⟩
      · split <;> exact ⟨rfl, Or.inl ⟨rfl, rfl⟩⟩
  | setClock now => exact ⟨hs, rfl, Or.inl ⟨rfl, rfl⟩⟩
  | runLoop b =>
      obtain rfl : b = false := by simpa using hc
      simp only [step, hs.runLoop_eq]
      exact ⟨hs, trivial, Or.inl ⟨trivial, trivial⟩⟩
  | fire =>
      simp only [step, hs.fire_eq]
      exact ⟨hs, trivial, Or.inl ⟨trivial, trivial⟩⟩
  | reset =>
      refine ⟨hs.reset, ?_⟩
      simp only [step, Throttle.reset, hs.dropTimer_eq]
      exact ⟨trivial, Or.inl ⟨trivial, trivial⟩⟩
  | cancel =>
      refine ⟨hs.cancel, ?_⟩
      simp only [step, Throttle.cancel, hs.dropTimer_eq]
      exact ⟨trivial, Or.inl ⟨trivial, trivial⟩⟩

/-- Every run leaves a throttle without a loop so, with the same window, by induction on the run. -/
theorem loopless_after {s : Session τ α} (hs : s.throttle.Loopless) {cs : List (Command τ α)}
    (hcs : ∀ c ∈ cs, c ≠ .runLoop true) :
    (s.after cs).throttle.Loopless ∧ (s.after cs).throttle.window = s.throttle.window := by
  induction cs generalizing s with
  | nil => exact ⟨hs, rfl⟩
  | cons c rest ih =>
      obtain ⟨hloopless, hwindow, -⟩ := loopless_step hs (hcs c List.mem_cons_self)
      obtain ⟨hafter, hsame⟩ := ih hloopless fun d hd => hcs d (List.mem_cons_of_mem c hd)
      exact ⟨hafter, hsame.trans hwindow⟩

/-- The time that a throttle keeps is that of the last report that was given out. -/
theorem lastTime_after {s : Session τ α} (hs : s.throttle.Loopless) {cs : List (Command τ α)}
    (hcs : ∀ c ∈ cs, c ≠ .runLoop true) :
    (s.after cs).throttle.lastTime = ((s.dated cs).getLast?.map Prod.fst).or s.throttle.lastTime := by
  induction cs generalizing s with
  | nil => rfl
  | cons c rest ih =>
      obtain ⟨hloopless, -, hgiven⟩ := loopless_step hs (hcs c List.mem_cons_self)
      rw [after_cons, ih hloopless fun d hd => hcs d (List.mem_cons_of_mem c hd), dated,
        List.getLast?_append]
      rcases hgiven with ⟨hnone, hsame⟩ | ⟨r, -, hone, hnow⟩
      · simp [hnone, hsame]
      · simp only [hone, hnow, List.map_cons, List.map_nil, List.getLast?_singleton]
        cases ((s.step c).1.dated rest).getLast? <;> rfl

/-- **Without a loop there are no timers, only reports that are offered are given out, and a report lands
whenever the window is over.**  No loop is given and none ever runs.  After any run no timer waits and the
loop has none, and a command that gives out a report offers this report.  A report that is offered when the
window has passed since the last one that the run gave out, or when the run has given out none, leaves
nothing held and its size as the last one, whatever was held before; and it is given out exactly if its size
differs from the one that was last. -/
theorem lands_without_loop (now window : τ) {cs : List (Command τ α)}
    (hcs : ∀ c ∈ cs, c ≠ .runLoop true) :
    let start : Session τ α := ⟨now, .make window (.found false)⟩
    let met := start.after cs
    (met.throttle.isWaiting = false ∧ met.throttle.liveTimers = [] ∧
      ∀ c, ∀ r ∈ (met.step c).2.given, c = .offer r) ∧
    (start.IsOver cs → ∀ r,
      let next := met.step (.offer r)
      met.throttle.Lands r ⟨next.1.throttle, next.2.given⟩) := by
  intro start met
  have hstart : start.throttle.Loopless := Throttle.loopless_make window
  obtain ⟨hmet, hwindow⟩ : met.throttle.Loopless ∧ met.throttle.window = start.throttle.window :=
    loopless_after hstart hcs
  refine ⟨⟨by simp [Throttle.isWaiting, hmet.timer], hmet.liveTimers_eq, fun c r hr => ?_⟩,
    fun hover r => ?_⟩
  · by_cases hc : c = .runLoop true
    · subst hc
      simp [step] at hr
    · obtain ⟨-, -, ⟨hnone, -⟩ | ⟨q, hq, hone, -⟩⟩ := loopless_step hmet hc
      · simp [hnone] at hr
      · obtain rfl : r = q := by simpa [hone] using hr
        exact hq
  · -- the throttle measures from the last report that the run gave out
    have hlast : met.throttle.lastTime = (start.dated cs).getLast?.map Prod.fst := by
      rw [lastTime_after hstart hcs]
      exact Option.or_none
    have hpassed : met.throttle.windowPassed met.now = true := by
      rw [Throttle.windowPassed, Throttle.elapsed, hlast, hwindow, Option.all_eq_true]
      intro elapsed helapsed
      simp only [Option.map_map, Option.map_eq_some_iff] at helapsed
      obtain ⟨latest, hlatest, rfl⟩ := helapsed
      exact hover latest hlatest
    exact hmet.lands r hpassed

/-- A throttle with a window of a tenth of a second and without a loop, before its first report. -/
def stranded : Session Float Size :=
  ⟨0.0, .make 0.1 (.found false)⟩

/-- A canvas that is dragged through two sizes and then rests until the window is over. -/
def lingering : List (Command Float Size) :=
  [.offer (square 1), .setClock 0.01, .offer (square 2), .setClock 0.2]

/-- The second size is held when the window is over.  Reported again, it is given out; a report of the first
size is not given out again, and the second size is given up. -/
theorem lands_without_loop_lingering :
    ((∀ c ∈ lingering, c ≠ .runLoop true) ∧ stranded.IsOver lingering) ∧
    ((stranded.after lingering).throttle.held.any fun h => h.size == (square 2).size) = true ∧
    (let again := (stranded.after lingering).step (.offer (square 2))
     again.1.throttle.held = none ∧ again.2.given = [square 2]) ∧
    let back := (stranded.after lingering).step (.offer (square 1))
    back.1.throttle.held = none ∧ back.2.given = [] := by
  have hover : stranded.IsOver lingering := by
    have hlate : (stranded.dated lingering).getLast?.all (fun latest =>
        Clock.covers (Clock.since (stranded.after lingering).now latest.1) stranded.throttle.window)
          = true := by decide +kernel
    rw [Option.all_eq_true] at hlate
    exact fun latest hlatest => hlate latest hlatest
  have htwo : ((stranded.after lingering).throttle.last.any fun s => (square 2).size == s) = false := by
    decide +kernel
  have hone : ((stranded.after lingering).throttle.last.any fun s => (square 1).size == s) = true := by
    decide +kernel
  have hnone : ∀ c ∈ lingering, c ≠ .runLoop true := by simp [lingering]
  obtain ⟨-, hlands⟩ := lands_without_loop (0.0 : Float) 0.1 hnone
  have hagain := hlands hover (square 2)
  have hback := hlands hover (square 1)
  refine ⟨⟨hnone, hover⟩, by decide +kernel, ⟨hagain.held, ?_⟩, hback.held, ?_⟩
  · exact hagain.given.trans (if_neg (Bool.eq_false_iff.1 htwo))
  · exact hback.given.trans (if_pos hone)

end Session

end Resize

end SketchHost
