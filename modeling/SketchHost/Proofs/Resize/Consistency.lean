/-
**A throttle never contradicts itself.**

A throttle with a loop keeps the same thing in several places: a report is held, a timer waits, and the
loop has a timer.  At any time these agree, however the clock was moved and whichever timers were late.
What is held has another size than what was given out last, and so two reports that are given out one
after the other differ in size.  Only a reset forgets the size that was given out last, so only after a
reset the same size may come twice.

* `Resize.Throttle.Consistent` — the places where a report that waits shows agree;
* `Resize.Throttle.Coherent.consistent` — so they do in every coherent throttle;
* `Resize.Session.gives_step` — what a command other than a reset gives out;
* `Resize.Session.isChain_sizes` — the sizes that are given out without a reset, by induction on the run;
* `Resize.Session.consistent_and_distinct` — **every run leaves a throttle that agrees with itself, and
  no size is given out twice in a row unless a reset comes between**.
-/

import SketchHost.Proofs.Resize.Delivery
import Mathlib.Data.List.Chain

set_option relaxedAutoImplicit false
set_option autoImplicit false

namespace SketchHost

namespace Resize

variable {τ α : Type} [BEq α]

namespace Throttle

/-! ### States -/

/-- The places where a report that waits shows agree.  A timer waits exactly if a report is held, which
is so exactly if the loop has one timer that is neither run nor cancelled; otherwise it has none.  And
what is held does not have the size that was given out last. -/
structure Consistent (t : Throttle τ α) : Prop where
  isWaiting_iff : t.isWaiting = true ↔ t.held ≠ none
  held_iff : t.held ≠ none ↔ ∃ timer, t.liveTimers = [timer]
  liveTimers_of_idle : t.held = none → t.liveTimers = []
  differs : ∀ r ∈ t.held, ∀ size ∈ t.last, (r.size == size) = false

theorem Coherent.consistent {t : Throttle τ α} (ht : t.Coherent) : t.Consistent := by
  have hlive : t.liveTimers.map Timer.handle = t.timer.toList := ht.timers
  have hwaiting := ht.waiting
  cases htimer : t.timer with
  | none =>
      have hheld : t.held = none := ht.held_eq_none htimer
      have hnone : t.liveTimers = [] := by
        rw [htimer] at hlive
        exact List.map_eq_nil_iff.1 hlive
      refine ⟨?_, ?_, fun _ => hnone, ht.differs⟩
      · simp [isWaiting, htimer, hheld]
      · simp [hheld, hnone]
  | some handle =>
      have hheld : t.held ≠ none := by
        rw [htimer] at hwaiting
        exact Option.isSome_iff_ne_none.1 hwaiting
      obtain ⟨timer, hone, -⟩ : ∃ timer, t.liveTimers = [timer] ∧ timer.handle = handle := by
        rw [htimer] at hlive
        exact List.map_eq_singleton_iff.1 hlive
      refine ⟨?_, ?_, ?_, ht.differs⟩
      · exact iff_of_true (by simp [isWaiting, htimer]) hheld
      · exact iff_of_true hheld ⟨timer, hone⟩
      · intro hnone
        exact absurd hnone hheld

end Throttle

/-! ### Runs -/

namespace Session

variable [Clock τ]

/-- A command other than a reset gives out nothing and leaves the last size as it is, or it gives out
one report, of another size than the last one. -/
theorem gives_step {s : Session τ α} (hs : s.throttle.Coherent) {c : Command τ α} (hc : c ≠ .reset) :
    ((s.step c).2.given = [] ∧ (s.step c).1.throttle.last = s.throttle.last) ∨
      ∃ r, (s.step c).2.given = [r] ∧ (s.step c).1.throttle.last = some r.size ∧
        ∀ size ∈ s.throttle.last, (r.size == size) = false := by
  cases c with
  | reset => exact absurd rfl hc
  | cancel => exact Or.inl ⟨rfl, Throttle.dropTimer_last s.throttle⟩
  | setClock now => exact Or.inl ⟨rfl, rfl⟩
  | runLoop b => exact Or.inl ⟨rfl, rfl⟩
  | offer r =>
      cases hk : s.throttle.isKnown r.size with
      | true =>
          refine Or.inl ?_
          simp [step, hs.offer_of_known s.now hk]
      | false =>
          cases hp : s.throttle.windowPassed s.now with
          | true =>
              -- given out at once: a size that was given out last is known
              refine Or.inr ⟨r, ?_, ?_, ?_⟩
              · simp [step, hs.offer_of_passed hk hp, Throttle.giveOut]
              · simp [step, hs.offer_of_passed hk hp, Throttle.giveOut]
              · intro size hsize
                rw [Throttle.isKnown, Bool.or_eq_false_iff, Option.any_eq_false] at hk
                simpa using hk.1 size hsize
          | false =>
              refine Or.inl ?_
              simp [step, hs.offer_of_early hk hp, (Throttle.hold_held_last _ s.now r).2]
  | fire =>
      cases htimer : s.throttle.timer with
      | none =>
          refine Or.inl ?_
          simp [step, hs.fire_of_idle htimer]
      | some handle =>
          -- given out by the timer: it was held, so it differs from what was given out last
          obtain ⟨l, r, -, hr, hfire⟩ := hs.fire_of_waiting htimer s.now
          refine Or.inr ⟨r, ?_, ?_, hs.differs r hr⟩
          · simp [step, hfire]
          · simp [step, hfire]

/-- The sizes that a run without a reset gives out, behind the one that was given out last, by induction
on the run: each differs from the one before it. -/
theorem isChain_sizes {s : Session τ α} {cs : List (Command τ α)} (hs : s.Looped cs)
    (hcs : ∀ c ∈ cs, c ≠ .reset) :
    (s.throttle.last.toList ++ (s.given cs).map Report.size).IsChain
      fun earlier later => (later == earlier) = false := by
  induction cs generalizing s with
  | nil => cases s.throttle.last <;> simp
  | cons c rest ih =>
      have hrest := ih hs.step fun d hd => hcs d (List.mem_cons_of_mem c hd)
      rw [given_cons]
      rcases gives_step hs.coherent (hcs c List.mem_cons_self) with ⟨hnone, hlast⟩ | ⟨r, hone, hlast, hdiffers⟩
      · rw [hnone, List.nil_append]
        rw [hlast] at hrest
        exact hrest
      · rw [hone, List.singleton_append, List.map_cons]
        rw [hlast, Option.toList_some, List.singleton_append] at hrest
        cases hbefore : s.throttle.last with
        | none => exact hrest
        | some size => exact List.isChain_cons_cons.2 ⟨hdiffers size hbefore, hrest⟩

/-- **Every run leaves a throttle that agrees with itself, and no size is given out twice in a row unless
a reset comes between.**  The throttle is new, and a loop is there all the time; the clock may be set to any
time, and the timers may run at any time.  `history` is any run, and `stretch` is any further one without a
reset. -/
theorem consistent_and_distinct (now window : τ) {source : LoopSource}
    {history stretch : List (Command τ α)} (hloop : source.Lasts (history ++ stretch))
    (hstretch : ∀ c ∈ stretch, c ≠ .reset) :
    let met := (⟨now, .make window source⟩ : Session τ α).after history
    met.throttle.Consistent ∧
      (met.given stretch).IsChain fun earlier later => (later.size == earlier.size) = false := by
  intro met
  have hmet : met.Looped stretch := (looped_make now window hloop).after
  refine ⟨hmet.coherent.consistent, ?_⟩
  have hchain := isChain_sizes hmet hstretch
  exact (List.isChain_map Report.size).1 hchain.right_of_append

/-- A canvas that is dragged while the clock goes back, and whose first report is then given up. -/
def unsteady : List (Command Float Size) :=
  [.offer (square 1), .setClock 0.05, .offer (square 2), .setClock 0.01, .cancel]

/-- The size that was given up, the size that was given out, and again the size that was given up. -/
def returning : List (Command Float Size) :=
  [.offer (square 1), .offer (square 2), .fire, .setClock 0.3, .offer (square 2), .offer (square 1)]

/-- The rule at a canvas that returns to a size which was given up: it is given out then, and the size
that was given out before is not given out again. -/
theorem consistent_and_distinct_returning :
    (LoopSource.given.Lasts (unsteady ++ returning) ∧ ∀ c ∈ returning, c ≠ .reset) ∧
    (untouched.after unsteady).throttle.Consistent ∧
    ((untouched.after unsteady).given returning).length = 2 ∧
    ((untouched.after unsteady).given returning).IsChain
      fun earlier later => (later.size == earlier.size) = false := by
  have hloop : LoopSource.given.Lasts (unsteady ++ returning) := Or.inl rfl
  have hreturning : ∀ c ∈ returning, c ≠ .reset := by simp [returning]
  have hrule := consistent_and_distinct (0.0 : Float) 0.1 hloop hreturning
  exact ⟨⟨hloop, hreturning⟩, hrule.1, by decide +kernel, hrule.2⟩

end Session

end Resize

end SketchHost
