/-
**Where the reports of a throttle come from.**

A throttle makes no reports up.  What it gives out for a report that is offered is that report; what
its timers give out was held before; and what it holds was held before or has just been offered.  After
a reset it holds nothing.  The size that counts as the last one is that of a report that was given out.
None of this needs a loop or an idle timer: it holds of every state.

* `Resize.Throttle.held_offer`, `given_offer` — a report that is offered;
* `Resize.Throttle.held_fire`, `given_fire` — timers that run;
* `Resize.Throttle.held_reset`, `held_cancel` — nothing is held any more;
* `Resize.Throttle.last_offer`, `last_fire` — where the size that was given out last comes from.
-/

import SketchHost.Proofs.Resize.Coherence

set_option relaxedAutoImplicit false
set_option autoImplicit false

namespace SketchHost

namespace Resize

namespace Throttle

variable {τ α : Type}

@[simp] theorem held_reset (t : Throttle τ α) : t.reset.held = none := rfl

@[simp] theorem held_cancel (t : Throttle τ α) : t.cancel.held = none := rfl

/-! ### Offers -/

section Submit

variable [Clock τ]

/-- What is held when a report is met was held before. -/
theorem held_of_mem_dropOverdue {t : Throttle τ α} {now : τ} {q : Report α}
    (hq : q ∈ (t.dropOverdue now).held) : q ∈ t.held := by
  rw [dropOverdue] at hq
  split at hq
  · simp at hq
  · exact hq

variable [BEq α]

/-- After an offer the report that was offered is held, or one that was held before. -/
theorem held_offer {t : Throttle τ α} {now : τ} {r q : Report α}
    (hq : q ∈ (t.offer now r).1.after.held) : q = r ∨ q ∈ t.held := by
  simp only [offer] at hq
  split at hq
  · exact Or.inr (held_of_mem_dropOverdue hq)
  · split at hq
    · simp [giveOut] at hq
    · rw [(hold_held_last _ now r).1] at hq
      exact Or.inl (by simpa using hq.symm)

/-- An offer gives out no other report than the one that is offered. -/
theorem given_offer {t : Throttle τ α} {now : τ} {r q : Report α}
    (hq : q ∈ (t.offer now r).1.given) : q = r := by
  simp only [offer] at hq
  split at hq
  · simp at hq
  · split at hq
    · simpa [giveOut] using hq
    · simp at hq

end Submit

/-! ### Timers -/

/-- A timer that runs leaves nothing else held, and gives out nothing else than what was held. -/
theorem held_runTimer {t : Throttle τ α} {now : τ} {handle : Nat} {q : Report α}
    (hq : q ∈ (t.runTimer now handle).after.held ∨ q ∈ (t.runTimer now handle).given) :
    q ∈ t.held := by
  rw [runTimer] at hq
  split at hq
  · rw [release] at hq
    cases hheld : t.held with
    | none => simp [hheld] at hq
    | some r => simpa [hheld, giveOut, eq_comm] using hq
  · rcases hq with h | h
    · exact h
    · simp at h

/-- The same for several timers, by induction on their handles. -/
theorem held_runTimers {now : τ} {q : Report α} (handles : List Nat) {t : Throttle τ α}
    (hq : q ∈ (t.runTimers now handles).after.held ∨ q ∈ (t.runTimers now handles).given) :
    q ∈ t.held := by
  induction handles generalizing t with
  | nil =>
      rcases hq with h | h
      · exact h
      · simp [runTimers] at h
  | cons handle rest ih =>
      simp only [runTimers, List.mem_append] at hq
      rcases hq with h | h | h
      · exact held_runTimer (Or.inl (ih (Or.inl h)))
      · exact held_runTimer (Or.inr h)
      · exact held_runTimer (Or.inl (ih (Or.inr h)))

/-- What is held after the timers have run was held before. -/
theorem held_fire {t : Throttle τ α} {now : τ} {q : Report α}
    (hq : q ∈ (t.fire now).1.after.held) : q ∈ t.held :=
  held_runTimers _ (Or.inl hq)

/-- What the timers give out was held. -/
theorem given_fire {t : Throttle τ α} {now : τ} {q : Report α}
    (hq : q ∈ (t.fire now).1.given) : q ∈ t.held :=
  held_runTimers _ (Or.inr hq)

/-! ### The size that was given out last -/

section Submit

variable [Clock τ]

@[simp] theorem last_dropOverdue (t : Throttle τ α) (now : τ) :
    (t.dropOverdue now).last = t.last := by
  rw [dropOverdue]
  split <;> rfl

variable [BEq α]

/-- After an offer the size that was given out last is the one from before, or that of a report that the
offer gives out. -/
theorem last_offer {t : Throttle τ α} {now : τ} {r : Report α} {size : α}
    (h : size ∈ (t.offer now r).1.after.last) :
    size ∈ t.last ∨ ∃ q ∈ (t.offer now r).1.given, q.size = size := by
  revert h
  simp only [offer]
  split
  · simp
  · split
    · intro h
      exact Or.inr (by simpa [giveOut] using h)
    · rw [(hold_held_last _ now r).2, last_dropOverdue]
      exact Or.inl

end Submit

/-- After a timer has run it is the one from before, or that of a report that the timer gives out. -/
theorem last_runTimer {t : Throttle τ α} {now : τ} {handle : Nat} {size : α}
    (h : size ∈ (t.runTimer now handle).after.last) :
    size ∈ t.last ∨ ∃ q ∈ (t.runTimer now handle).given, q.size = size := by
  revert h
  rw [runTimer]
  split
  · rw [release]
    cases t.held with
    | none => exact Or.inl
    | some q =>
        intro h
        exact Or.inr (by simpa [giveOut] using h)
  · exact Or.inl

/-- The same for several timers, by induction on their handles. -/
theorem last_runTimers {now : τ} {size : α} (handles : List Nat) {t : Throttle τ α}
    (h : size ∈ (t.runTimers now handles).after.last) :
    size ∈ t.last ∨ ∃ q ∈ (t.runTimers now handles).given, q.size = size := by
  induction handles generalizing t with
  | nil => exact Or.inl h
  | cons handle rest ih =>
      simp only [runTimers, List.mem_append] at h ⊢
      rcases ih h with hfirst | ⟨q, hq, hsize⟩
      · rcases last_runTimer hfirst with hlast | ⟨q, hq, hsize⟩
        · exact Or.inl hlast
        · exact Or.inr ⟨q, Or.inl hq, hsize⟩
      · exact Or.inr ⟨q, Or.inr hq, hsize⟩

/-- After the timers have run it is the one from before, or that of a report that they give out. -/
theorem last_fire {t : Throttle τ α} {now : τ} {size : α} (h : size ∈ (t.fire now).1.after.last) :
    size ∈ t.last ∨ ∃ q ∈ (t.fire now).1.given, q.size = size :=
  last_runTimers _ h

end Throttle

end Resize

end SketchHost
