/-
**Reports are neither lost nor doubled.**

A throttle with a loop conserves reports: what a command gives out and what is held after it is the
report that the command brought, if that was taken, and what was held before if not.  Only a reset gives
up what is held, and only a newer report that is taken replaces it.  So the reports that are given out
are reports that were taken, in their order and none twice, and the latest one that was taken is given
out or held.

* `Resize.Command.taken?`, `Resize.Session.taken` — the reports that are offered and taken;
* `Resize.Session.conserves_step` — an ordinary command conserves reports;
* `Resize.Session.conserves_after` — so does a run in which nothing new is taken;
* `Resize.Session.sublist_after` — what a run gives out and holds, among what it was given;
* `Resize.Session.given_in_order_latest_kept` — **reports that are given out were taken, in this order,
  and the latest one that was taken is given out or held for the timer**.
-/

import SketchHost.Proofs.Resize.Provenance
import SketchHost.Proofs.Resize.TrailingEdge

set_option relaxedAutoImplicit false
set_option autoImplicit false

namespace SketchHost

namespace Resize

variable {τ α : Type}

/-- The report that a command offers, if the reply says that it was taken. -/
def Command.taken? : Command τ α → Reply → Option (Report α)
  | .offer r, .taken true => some r
  | _, _ => none

namespace Session

variable [Clock τ] [BEq α]

/-- The reports that several commands offer and that are taken. -/
def taken (s : Session τ α) : List (Command τ α) → List (Report α)
  | [] => []
  | c :: rest => (c.taken? (s.step c).2.reply).toList ++ taken (s.step c).1 rest

@[simp] theorem taken_nil (s : Session τ α) : s.taken [] = [] := rfl

@[simp] theorem taken_cons (s : Session τ α) (c : Command τ α) (cs : List (Command τ α)) :
    s.taken (c :: cs) = (c.taken? (s.step c).2.reply).toList ++ (s.step c).1.taken cs := rfl

/-! ### Single commands -/

/-- An ordinary command conserves reports: it gives out or leaves held the report that it brought, if
this was taken, and else what was held before. -/
theorem conserves_step {s : Session τ α} (hs : s.throttle.Coherent) {c : Command τ α}
    (hc : isOrdinary c = true) :
    (s.step c).2.given ++ (s.step c).1.throttle.held.toList
      = ((c.taken? (s.step c).2.reply).or s.throttle.held).toList := by
  cases c with
  | reset => simp [isOrdinary] at hc
  | cancel => simp [isOrdinary] at hc
  | setClock now => rfl
  | runLoop b => rfl
  | offer r =>
      cases hk : s.throttle.isKnown r.size with
      | true => simp [step, hs.offer_of_known s.now hk, Command.taken?]
      | false =>
          cases hp : s.throttle.windowPassed s.now with
          | true => simp [step, hs.offer_of_passed hk hp, Throttle.giveOut, Command.taken?]
          | false =>
              simp [step, hs.offer_of_early hk hp, (Throttle.hold_held_last _ s.now r).1,
                Command.taken?]
  | fire =>
      cases h : s.throttle.timer with
      | none => simp [step, hs.fire_of_idle h, Command.taken?]
      | some handle =>
          obtain ⟨l, r, -, hr, hfire⟩ := hs.fire_of_waiting h s.now
          simp [step, hfire, hr, Command.taken?]

/-- What is held waits for the timer, which gives it out when it runs. -/
theorem fire_of_held {s : Session τ α} (hs : s.throttle.Coherent) {r : Report α}
    (hheld : s.throttle.held = some r) :
    s.throttle.isWaiting = true ∧ (s.step .fire).2.given = [r] := by
  have hwaiting := hs.waiting
  rw [hheld] at hwaiting
  obtain ⟨handle, htimer⟩ := Option.isSome_iff_exists.1 hwaiting.symm
  obtain ⟨l, q, -, hq, hfire⟩ := hs.fire_of_waiting htimer s.now
  obtain rfl : r = q := by simpa [hheld] using hq
  exact ⟨by simp [Throttle.isWaiting, htimer], by simp [step, hfire]⟩

/-- Every command gives out and leaves held, in this order, part of what was held and what it
brought. -/
theorem sublist_step {s : Session τ α} (hs : s.throttle.Coherent) (c : Command τ α) :
    ((s.step c).2.given ++ (s.step c).1.throttle.held.toList).Sublist
      (s.throttle.held.toList ++ (c.taken? (s.step c).2.reply).toList) := by
  cases hc : isOrdinary c with
  | true =>
      rw [conserves_step hs hc]
      cases c.taken? (s.step c).2.reply with
      | none => simp
      | some r => exact List.sublist_append_right _ _
  | false =>
      -- a reset or a cancellation gives out nothing and leaves nothing held
      cases c with
      | reset => simp [step]
      | cancel => simp [step]
      | _ => simp [isOrdinary] at hc

/-! ### Runs -/

/-- A run of ordinary commands by which nothing new is taken conserves what is held. -/
theorem conserves_after {s : Session τ α} {cs : List (Command τ α)} (hs : s.Looped cs)
    (hcs : ∀ c ∈ cs, isOrdinary c = true) (hnone : s.taken cs = []) :
    s.given cs ++ (s.after cs).throttle.held.toList = s.throttle.held.toList := by
  induction cs generalizing s with
  | nil => simp
  | cons c rest ih =>
      rw [taken_cons, List.append_eq_nil_iff, Option.toList_eq_nil_iff] at hnone
      obtain ⟨hc, hrest⟩ := hnone
      have hstep := conserves_step hs.coherent (hcs c List.mem_cons_self)
      rw [hc, Option.none_or] at hstep
      rw [given_cons, after_cons, List.append_assoc,
        ih hs.step (fun d hd => hcs d (List.mem_cons_of_mem _ hd)) hrest, hstep]

/-- What a run gives out and leaves held is, in this order, part of what was held before it and of what
was taken in it. -/
theorem sublist_after {s : Session τ α} {cs : List (Command τ α)} (hs : s.Looped cs) :
    (s.given cs ++ (s.after cs).throttle.held.toList).Sublist
      (s.throttle.held.toList ++ s.taken cs) := by
  induction cs generalizing s with
  | nil => simp
  | cons c rest ih =>
      -- what the command leaves held is what the rest of the run begins with
      have hrest := (ih hs.step).append_left (s.step c).2.given
      have hstep := (sublist_step hs.coherent c).append_right ((s.step c).1.taken rest)
      rw [List.append_assoc, List.append_assoc] at hstep
      rw [given_cons, after_cons, taken_cons, List.append_assoc]
      exact hrest.trans hstep

/-- **Reports that are given out were taken, in this order, and the latest one that was taken is given
out or held for the timer.**  The throttle is met by any commands, during which a loop is there.  After any
of them the reports that were given out are a part, in the same order and each once, of those that were
taken.  If `r` was taken, nothing was taken after it, and it was not given up by a reset or a cancellation,
then it was given out exactly once and nothing is held, or it is exactly what is held and the timer that
waits gives it out when it runs. -/
theorem given_in_order_latest_kept (now window : τ) (source : LoopSource) :
    let start : Session τ α := ⟨now, .make window source⟩
    (∀ cs, source.Lasts cs → (start.given cs).Sublist (start.taken cs)) ∧
    ∀ before r later, source.Lasts (before ++ .offer r :: later) →
      ((start.after before).step (.offer r)).2.reply = .taken true →
      (∀ c ∈ later, isOrdinary c = true) →
      ((start.after before).step (.offer r)).1.taken later = [] →
      let given := (start.after before).given (.offer r :: later)
      let final := start.after (before ++ .offer r :: later)
      (given = [r] ∧ final.throttle.held = none) ∨
        (given = [] ∧ final.throttle.held = some r ∧ final.throttle.isWaiting = true ∧
          (final.step .fire).2.given = [r]) := by
  intro start
  refine ⟨fun cs hloop => ?_, fun before r later hloop htaken hlater hnone => ?_⟩
  · exact (List.sublist_append_left _ _).trans (sublist_after (looped_make now window hloop))
  · intro given final
    have hstart : start.Looped (before ++ .offer r :: later) := looped_make now window hloop
    have hmet : (start.after before).Looped (.offer r :: later) := hstart.after
    have hfinal : final.throttle.Coherent := coherent_after hstart
    -- the report is given out or held, now and after the later commands
    have hkept : given ++ final.throttle.held.toList = [r] := by
      have hlate := conserves_after hmet.step hlater hnone
      have hoffer := conserves_step hmet.coherent (c := .offer r) rfl
      rw [htaken] at hoffer
      simp only [given, final, given_cons, after_append, after_cons, List.append_assoc, hlate]
      exact hoffer
    cases hheld : final.throttle.held with
    | none => exact Or.inl ⟨by simpa [hheld] using hkept, rfl⟩
    | some q =>
        obtain ⟨hgiven, rfl⟩ : given = [] ∧ q = r := by
          cases hg : given <;> simp_all
        exact Or.inr ⟨hgiven, rfl, fire_of_held hfinal hheld⟩

/-- A throttle with a window of a tenth of a second, before its first report. -/
def untouched : Session Float Size :=
  ⟨0.0, .make 0.1 .given⟩

/-- A canvas that is dragged through two sizes. -/
def dragging : List (Command Float Size) :=
  [.offer (square 1), .setClock 0.01, .offer (square 2), .setClock 0.02]

/-- A canvas that reports its last size once more and then rests until the window is over. -/
def resting : List (Command Float Size) :=
  [.offer (square 3), .setClock 0.2]

/-- The second size is replaced by the third one, which is repeated to no effect and waits for the
timer. -/
theorem given_in_order_latest_kept_dragging :
    (LoopSource.given.Lasts (dragging ++ .offer (square 3) :: resting) ∧
      ((untouched.after dragging).step (.offer (square 3))).2.reply = .taken true ∧
      (∀ c ∈ resting, isOrdinary c = true) ∧
      ((untouched.after dragging).step (.offer (square 3))).1.taken resting = []) ∧
    (untouched.given (dragging ++ .offer (square 3) :: resting)).Sublist
      (untouched.taken (dragging ++ .offer (square 3) :: resting)) ∧
    ((untouched.after (dragging ++ .offer (square 3) :: resting)).step .fire).2.given
      = [square 3] := by
  have hloop : LoopSource.given.Lasts (dragging ++ .offer (square 3) :: resting) := Or.inl rfl
  have htaken : ((untouched.after dragging).step (.offer (square 3))).2.reply = .taken true := by
    decide +kernel
  have hordinary : ∀ c ∈ resting, isOrdinary c = true := by simp [resting, isOrdinary]
  have hnone : ((untouched.after dragging).step (.offer (square 3))).1.taken resting = [] :=
    List.isEmpty_iff.1 (by decide +kernel)
  have hheld : (untouched.after (dragging ++ .offer (square 3) :: resting)).throttle.held.isSome
      = true := by decide +kernel
  obtain ⟨hsub, hlatest⟩ := given_in_order_latest_kept (τ := Float) (α := Size) 0.0 0.1 .given
  refine ⟨⟨hloop, htaken, hordinary, hnone⟩, hsub _ hloop, ?_⟩
  rcases hlatest dragging (square 3) resting hloop htaken hordinary hnone with
    ⟨-, hgone⟩ | ⟨-, -, -, hfire⟩
  · have := Option.isSome_iff_ne_none.1 hheld
    exact absurd hgone this
  · exact hfire

end Session

end Resize

end SketchHost
