/-
**A reset separates runs.**

A reset forgets the sizes that were met and takes the timer back, but it keeps the time at which a
report was given out last.  So nothing of the past is given out after it, and the first report that is
offered next is taken whatever its size: the kept time can only make it wait.  With a loop it waits for
a live timer, until it is given out, replaced by a newer report, or given up by another reset or a
cancellation.  All this holds of every state that a throttle may be in, with a loop or without one,
however often one began or ceased to run, and whatever timers the loop may have.

* `Resize.Command.offered?`, `Resize.Session.offered` — the reports that are offered;
* `Resize.Session.sublist_offered` — what a run gives out was held before it or is offered in it;
* `Resize.Throttle.Blank` — no size is known, nothing is held, and no timer waits;
* `Resize.Throttle.Awaits` — a report is held, and a live timer waits for it;
* `Resize.Session.Settles`, `Resize.Session.WaitsUntilSettled` — a report is waited for until it is
  settled what becomes of it;
* `Resize.Session.reset_separates` — **after a reset only newer reports are given out, and the first one
  is taken and is given out or waited for**.
-/

import SketchHost.Proofs.Resize.Delivery

set_option relaxedAutoImplicit false
set_option autoImplicit false

namespace SketchHost

namespace Resize

variable {τ α : Type}

/-- The report that a command offers. -/
def Command.offered? : Command τ α → Option (Report α)
  | .offer r => some r
  | _ => none

namespace Throttle

/-! ### What timers give out -/

/-- Without a report that is held the timers give out nothing. -/
theorem given_runTimers_of_not_held {t : Throttle τ α} (h : t.held = none) (now : τ)
    (handles : List Nat) : (t.runTimers now handles).given = [] := by
  refine List.eq_nil_iff_forall_not_mem.2 fun q hq => ?_
  have hheld := held_runTimers handles (Or.inr hq)
  simp [h] at hheld

/-- A timer gives out what is held, or leaves it held. -/
theorem sublist_runTimer (t : Throttle τ α) (now : τ) (handle : Nat) :
    ((t.runTimer now handle).given ++ (t.runTimer now handle).after.held.toList).Sublist
      t.held.toList := by
  rw [runTimer]
  split
  · rw [release]
    cases t.held <;> simp [giveOut]
  · exact List.Sublist.refl _

/-- So do several timers, by induction on their handles. -/
theorem sublist_runTimers (now : τ) (handles : List Nat) (t : Throttle τ α) :
    ((t.runTimers now handles).given ++ (t.runTimers now handles).after.held.toList).Sublist
      t.held.toList := by
  induction handles generalizing t with
  | nil => exact List.Sublist.refl _
  | cons handle rest ih =>
      simp only [runTimers, List.append_assoc]
      exact ((ih _).append_left _).trans (sublist_runTimer t now handle)

end Throttle

namespace Session

/-- The reports that several commands offer. -/
def offered (cs : List (Command τ α)) : List (Report α) :=
  cs.filterMap Command.offered?

@[simp] theorem offered_nil : offered ([] : List (Command τ α)) = [] := rfl

@[simp] theorem offered_cons (c : Command τ α) (cs : List (Command τ α)) :
    offered (c :: cs) = c.offered?.toList ++ offered cs := by
  cases h : c.offered? <;> simp [offered, h]

variable [Clock τ] [BEq α]

/-- Every command gives out and leaves held, in this order, part of what was held and what it offers,
whatever the state. -/
theorem sublist_offered_step (s : Session τ α) (c : Command τ α) :
    ((s.step c).2.given ++ (s.step c).1.throttle.held.toList).Sublist
      (s.throttle.held.toList ++ c.offered?.toList) := by
  cases c with
  | setClock now => simp [step, Command.offered?]
  | runLoop b => simp [step, Command.offered?, Throttle.runLoop]
  | fire => exact (Throttle.sublist_runTimers s.now _ s.throttle).trans (List.sublist_append_left _ _)
  | reset => simp [step]
  | cancel => simp [step]
  | offer r =>
      simp only [step, Throttle.offer, Command.offered?, Option.toList_some]
      split
      · -- the report is dropped, and what was held may be given up as overdue
        have hheld : ((s.throttle.dropOverdue s.now).held.toList).Sublist s.throttle.held.toList := by
          rw [Throttle.dropOverdue]
          split
          · simp
          · exact List.Sublist.refl _
        exact hheld.trans (List.sublist_append_left _ _)
      · split
        · simp [Throttle.giveOut]
        · simp [(Throttle.hold_held_last _ s.now r).1]

/-- What a run gives out and leaves held is, in this order, part of what was held before it and of what
is offered in it. -/
theorem sublist_offered (s : Session τ α) (cs : List (Command τ α)) :
    (s.given cs ++ (s.after cs).throttle.held.toList).Sublist
      (s.throttle.held.toList ++ offered cs) := by
  induction cs generalizing s with
  | nil => simp
  | cons c rest ih =>
      have hrest := (ih (s.step c).1).append_left (s.step c).2.given
      have hstep := (sublist_offered_step s c).append_right (offered rest)
      rw [List.append_assoc, List.append_assoc] at hstep
      rw [given_cons, after_cons, offered_cons, List.append_assoc]
      exact hrest.trans hstep

end Session

/-! ### A throttle without a past -/

namespace Throttle

/-- Nothing of the past is left but the time: no size is known, nothing is held, no timer waits. -/
structure Blank (t : Throttle τ α) : Prop where
  last : t.last = none
  held : t.held = none
  timer : t.timer = none

theorem blank_reset (t : Throttle τ α) : t.reset.Blank :=
  ⟨rfl, rfl, dropTimer_timer t⟩

theorem Blank.cancel {t : Throttle τ α} (ht : t.Blank) : t.cancel.Blank :=
  ⟨(dropTimer_last t).trans ht.last, rfl, dropTimer_timer t⟩

theorem Blank.runTimer {t : Throttle τ α} (ht : t.Blank) (now : τ) (handle : Nat) :
    (t.runTimer now handle).after.Blank := by
  rw [Throttle.runTimer]
  split
  · simp only [release, ht.held]
    exact ⟨ht.last, rfl, rfl⟩
  · exact ht

theorem Blank.runTimers {t : Throttle τ α} (ht : t.Blank) (now : τ) (handles : List Nat) :
    (t.runTimers now handles).after.Blank := by
  induction handles generalizing t with
  | nil => exact ht
  | cons handle rest ih => exact ih (ht.runTimer now handle)

theorem Blank.isKnown_eq_false [BEq α] {t : Throttle τ α} (ht : t.Blank) (size : α) :
    t.isKnown size = false := by
  simp [isKnown, ht.last, ht.held]

/-- A report is held, and the timer that waits for it is one that the loop still has. -/
structure Awaits (t : Throttle τ α) (r : Report α) : Prop where
  held : t.held = some r
  live : ∃ timer ∈ t.liveTimers, t.timer = some timer.handle

/-- A report that is waited for is given out when the timers run. -/
theorem Awaits.given_fire {t : Throttle τ α} {r : Report α} (ht : t.Awaits r) (now : τ) :
    (t.fire now).1.given = [r] := by
  obtain ⟨timer, htimer, -⟩ := ht.live
  simp only [fire, map_handle_liveTimers]
  cases hhandles : t.loop.handles with
  | nil =>
      rw [EventLoop.handles, List.map_eq_nil_iff] at hhandles
      simp [liveTimers, hhandles] at htimer
  | cons first rest =>
      -- the first timer gives the report out, and leaves nothing to those after it
      have hfirst : (t.runTimer now first).given = [r] ∧
          (t.runTimer now first).after.held = none := by
        simp [runTimer, hhandles, release, ht.held, giveOut]
      simp only [runTimers, hfirst.1, given_runTimers_of_not_held hfirst.2, List.append_nil]

variable [Clock τ]

theorem Blank.dropOverdue {t : Throttle τ α} (ht : t.Blank) (now : τ) :
    (t.dropOverdue now).Blank ∧ (t.dropOverdue now).source = t.source := by
  rw [Throttle.dropOverdue]
  split
  · exact ⟨⟨ht.last, rfl, ht.timer⟩, rfl⟩
  · exact ⟨ht, rfl⟩

/-- A throttle without a past that holds a report within the window sets a timer for it. -/
theorem Blank.awaits_hold {t : Throttle τ α} (ht : t.Blank) (hloop : t.source.isThere = true)
    {now : τ} (r : Report α) (hearly : t.windowPassed now = false) : (t.hold now r).Awaits r := by
  obtain ⟨e, he⟩ : ∃ e, t.elapsed now = some e := by
    cases he : t.elapsed now with
    | none => simp [windowPassed, he] at hearly
    | some e => exact ⟨e, rfl⟩
  have heq : t.hold now r =
      { t with held := some r, timer := some t.loop.next,
               loop := t.loop.callLater now (Clock.left t.window e) } := by
    simp [hold, ht.timer, he, setTimer, hloop]
  rw [heq]
  exact ⟨rfl, ⟨t.loop.next, now, Clock.left t.window e⟩, by simp [liveTimers, EventLoop.callLater], rfl⟩

variable [BEq α]

/-- The first report of a throttle without a past is taken, whatever its size and its time. -/
theorem Blank.offer_taken {t : Throttle τ α} (ht : t.Blank) (now : τ) (r : Report α) :
    (t.offer now r).2 = true := by
  simp only [offer, (ht.dropOverdue now).1.isKnown_eq_false, Bool.false_eq_true, if_false]
  split <;> rfl

/-- With a loop it is given out at once, or waited for. -/
theorem Blank.given_or_awaits {t : Throttle τ α} (ht : t.Blank) (hloop : t.source.isThere = true)
    (now : τ) (r : Report α) :
    (t.offer now r).1.given = [r] ∨
      (t.offer now r).1.given = [] ∧ (t.offer now r).1.after.Awaits r := by
  obtain ⟨hblank, hsame⟩ := ht.dropOverdue now
  simp only [offer, hblank.isKnown_eq_false, Bool.false_eq_true, if_false]
  split
  · exact Or.inl rfl
  · next hearly =>
      exact Or.inr ⟨rfl, hblank.awaits_hold (by rw [hsame, hloop]) r (by simpa using hearly)⟩

/-- A report that is met while another one is waited for is taken, or changes nothing. -/
theorem Awaits.offer {t : Throttle τ α} {r : Report α} (ht : t.Awaits r) (now : τ) (q : Report α) :
    (t.offer now q).2 = true ∨ (t.offer now q).1.after = t := by
  obtain ⟨timer, -, htimer⟩ := ht.live
  have hmet : t.dropOverdue now = t := by simp [dropOverdue, htimer]
  simp only [Throttle.offer, hmet]
  split
  · exact Or.inr rfl
  · split <;> exact Or.inl rfl

end Throttle

/-! ### Runs after a reset -/

namespace Session

variable [Clock τ] [BEq α]

/-- A command that offers nothing leaves a throttle without a past. -/
theorem blank_step {s : Session τ α} (hs : s.throttle.Blank) {c : Command τ α}
    (hc : c.offered? = none) : (s.step c).1.throttle.Blank := by
  cases c with
  | offer r => simp [Command.offered?] at hc
  | setClock now => exact hs
  | runLoop b => exact ⟨hs.last, hs.held, hs.timer⟩
  | fire => exact hs.runTimers s.now _
  | reset => exact Throttle.blank_reset _
  | cancel => exact hs.cancel

theorem blank_after {s : Session τ α} (hs : s.throttle.Blank) {cs : List (Command τ α)}
    (hcs : offered cs = []) : (s.after cs).throttle.Blank := by
  induction cs generalizing s with
  | nil => exact hs
  | cons c rest ih =>
      rw [offered_cons, List.append_eq_nil_iff, Option.toList_eq_nil_iff] at hcs
      exact ih (blank_step hs hcs.1) hcs.2

/-- It is settled what becomes of a report that is waited for: a command gives it out, offers a newer
one that is taken, or gives it up. -/
inductive Settles (s : Session τ α) (r : Report α) : Command τ α → Prop
  | given {c : Command τ α} (h : (s.step c).2.given = [r]) : Settles s r c
  | replaced {q : Report α} (h : (s.step (.offer q)).2.reply = .taken true) :
      Settles s r (.offer q)
  | reset : Settles s r .reset
  | cancelled : Settles s r .cancel

/-- A report is waited for through several commands, or until one of them settles what becomes of it. -/
def WaitsUntilSettled (r : Report α) : Session τ α → List (Command τ α) → Prop
  | s, [] => s.throttle.Awaits r
  | s, c :: rest => s.throttle.Awaits r ∧ (s.Settles r c ∨ WaitsUntilSettled r (s.step c).1 rest)

/-- A command settles what becomes of a report that is waited for, or it is waited for further on. -/
theorem settles_or_awaits_step {s : Session τ α} {r : Report α} (hs : s.throttle.Awaits r)
    (c : Command τ α) : s.Settles r c ∨ (s.step c).1.throttle.Awaits r := by
  cases c with
  | offer q =>
      rcases hs.offer s.now q with htaken | hsame
      · exact Or.inl (.replaced (by simp [step, htaken]))
      · exact Or.inr (by simpa [step, hsame] using hs)
  | setClock now => exact Or.inr hs
  | runLoop b => exact Or.inr ⟨hs.held, hs.live⟩
  | fire => exact Or.inl (.given (hs.given_fire s.now))
  | reset => exact Or.inl .reset
  | cancel => exact Or.inl .cancelled

/-- What is waited for is waited for until it is settled, by any commands. -/
theorem waitsUntilSettled {s : Session τ α} {r : Report α} (hs : s.throttle.Awaits r)
    (cs : List (Command τ α)) : WaitsUntilSettled r s cs := by
  induction cs generalizing s with
  | nil => exact hs
  | cons c rest ih => exact ⟨hs, (settles_or_awaits_step hs c).imp_right ih⟩

/-- **A reset separates runs.**  After a reset, whatever the throttle went through before it, all that is
given out was offered after the reset, in this order and each report once.  The first report that is
offered is taken, whatever its size and whatever else happens before it.  If there is a loop then, the report
is given out at once, or it is held and waited for by a live timer until it is given out, replaced by a
newer report that is taken, or given up by another reset or a cancellation. -/
theorem reset_separates (s : Session τ α) :
    let fresh := (s.step .reset).1
    (∀ cs, (fresh.given cs).Sublist (offered cs)) ∧
    ∀ quiet r, offered quiet = [] →
      let met := (fresh.after quiet).step (.offer r)
      met.2.reply = .taken true ∧
        ((fresh.after quiet).throttle.source.isThere = true →
          met.2.given = [r] ∨ met.2.given = [] ∧ ∀ later, met.1.WaitsUntilSettled r later) := by
  intro fresh
  refine ⟨fun cs => ?_, fun quiet r hquiet => ?_⟩
  · have hall := sublist_offered fresh cs
    rw [show fresh.throttle.held = none from rfl, Option.toList_none, List.nil_append] at hall
    exact (List.sublist_append_left _ _).trans hall
  · intro met
    have hblank := blank_after (s := fresh) (Throttle.blank_reset s.throttle) hquiet
    refine ⟨by simp [met, step, hblank.offer_taken], fun hloop => ?_⟩
    rcases hblank.given_or_awaits hloop (fresh.after quiet).now r with hgiven | ⟨hnone, hawaits⟩
    · exact Or.inl hgiven
    · exact Or.inr ⟨hnone, waitsUntilSettled hawaits⟩

/-- A run that is left alone while its timer is waited for, and a timer that runs to no effect. -/
def pausing : List (Command Float Size) :=
  [.setClock 0.03, .fire]

/-- A size that is still held when its run is over is reported again by the next run, within the window
of the run before.  It is taken, waits for a timer of its own, is repeated to no effect, and is given
out. -/
theorem reset_separates_dragging :
    (offered pausing = [] ∧
      (((untouched.after dragging).step .reset).1.after pausing).throttle.source.isThere = true) ∧
    let fresh := ((untouched.after dragging).step .reset).1
    let met := (fresh.after pausing).step (.offer (square 2))
    (untouched.after dragging).throttle.held.isSome = true ∧
      (fresh.given pausing).Sublist (offered pausing) ∧
      met.2.reply = .taken true ∧
      met.1.WaitsUntilSettled (square 2) [.offer (square 2), .setClock 0.2, .fire] := by
  have hloop : (((untouched.after dragging).step .reset).1.after
      pausing).throttle.source.isThere = true := by decide +kernel
  obtain ⟨hnew, hfirst⟩ := reset_separates (untouched.after dragging)
  obtain ⟨htaken, hkept⟩ := hfirst pausing (square 2) rfl
  refine ⟨⟨rfl, hloop⟩, by decide +kernel, hnew pausing, htaken, ?_⟩
  rcases hkept hloop with hgiven | ⟨-, hwaits⟩
  · exact absurd (congrArg List.length hgiven) (by decide +kernel)
  · exact hwaits _

end Session

end Resize

end SketchHost
