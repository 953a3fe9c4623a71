/-
**The trailing edge of a throttle.**

A throttle is meant to end on the latest size.  Once its timer has run, it rests at the size of the
report that was held, and without one at the size that was given out last.  A report that is taken
moves this point of rest to its own size; a report that is dropped leaves it where it is.  So a run
ends on the latest size unless the last report returns to the size that was given out last while a
report of another size is held: the timer still gives out the other size.

* `Resize.Throttle.settles?` — the size that a throttle rests at once its timer has run;
* `Resize.Throttle.Coherent.settles?_offer`, `settles?_fire` — what the operations do to it;
* `Resize.Throttle.Returns` — a report returns to the last size while another one is held;
* `Resize.Session.ends_on_latest_iff` — **a run ends on the latest size unless its last report
  returns**;
* `Resize.Session.ends_on_overtaken_size` — a run that ends on another size.
-/

import SketchHost.Proofs.Resize.Coherence

set_option relaxedAutoImplicit false
set_option autoImplicit false

namespace SketchHost

namespace Resize

variable {τ α : Type}

/-- Two sizes are the same: they are one value, or their equality takes them for one. -/
def SameSize [BEq α] (a b : α) : Prop :=
  a = b ∨ (a == b) = true ∨ (b == a) = true

namespace Throttle

/-! ### The point of rest -/

/-- The size that a throttle rests at once its timer has run. -/
def settles? (t : Throttle τ α) : Option α :=
  (t.held.map Report.size).or t.last

/-- A report of this size returns to the size that was given out last while a report of another size
is held. -/
def Returns [BEq α] (t : Throttle τ α) (size : α) : Prop :=
  (∃ s ∈ t.last, (size == s) = true) ∧ ∃ h ∈ t.held, ¬ SameSize h.size size

theorem settles?_of_held {t : Throttle τ α} {h : Report α} (hh : t.held = some h) :
    t.settles? = some h.size := by
  simp [settles?, hh]

theorem settles?_of_not_held {t : Throttle τ α} (hh : t.held = none) : t.settles? = t.last := by
  simp [settles?, hh]

variable [BEq α]

/-- Once the timers have run the size that was given out last is the point of rest, which they do
not move. -/
theorem Coherent.settles?_fire {t : Throttle τ α} (ht : t.Coherent) (now : τ) :
    (t.fire now).1.after.last = t.settles? ∧ (t.fire now).1.after.settles? = t.settles? := by
  cases h : t.timer with
  | none =>
      have hheld := ht.held_eq_none h
      rw [ht.fire_of_idle h]
      exact ⟨(settles?_of_not_held hheld).symm, rfl⟩
  | some handle =>
      obtain ⟨l, r, -, hr, hfire⟩ := ht.fire_of_waiting h now
      rw [hfire, settles?_of_held hr]
      exact ⟨rfl, rfl⟩

variable [Clock τ]

/-- A report that is taken is where the throttle comes to rest; one that is dropped moves nothing. -/
theorem Coherent.settles?_offer {t : Throttle τ α} (ht : t.Coherent) (now : τ) (r : Report α) :
    (t.offer now r).1.after.settles? = if t.isKnown r.size then t.settles? else some r.size := by
  cases hk : t.isKnown r.size with
  | true =>
      rw [ht.offer_of_known now hk]
      simp
  | false =>
      cases hp : t.windowPassed now with
      | true =>
          rw [ht.offer_of_passed hk hp]
          simp [giveOut, settles?]
      | false =>
          rw [ht.offer_of_early hk hp]
          simpa using settles?_of_held (hold_held_last t now r).1

/-- After a report the throttle rests at its size, unless the report returns. -/
theorem Coherent.settles?_offer_same_iff {t : Throttle τ α} (ht : t.Coherent) (now : τ)
    (r : Report α) :
    ∃ size, (t.offer now r).1.after.settles? = some size ∧
      (SameSize size r.size ↔ ¬ t.Returns r.size) := by
  rw [ht.settles?_offer]
  cases hk : t.isKnown r.size with
  | false =>
      -- the report is taken, and it does not have the size that was given out last
      refine ⟨r.size, by simp, iff_of_true (Or.inl rfl) ?_⟩
      rintro ⟨⟨s, hs, heq⟩, -⟩
      simp only [isKnown, Bool.or_eq_false_iff, Option.any_eq_false] at hk
      simp [hk.1 s hs] at heq
  | true =>
      simp only [isKnown, Bool.or_eq_true, Option.any_eq_true] at hk
      cases hh : t.held with
      | none =>
          -- nothing is held, so the report repeats the size that was given out last
          obtain ⟨s, hs, heq⟩ : ∃ s, t.last = some s ∧ (r.size == s) = true := by
            simpa [hh] using hk
          refine ⟨s, by simp [settles?_of_not_held hh, hs], iff_of_true (Or.inr (Or.inr heq)) ?_⟩
          rintro ⟨-, h, hmem, -⟩
          simp [hh] at hmem
      | some h =>
          -- the throttle rests at what it holds, which is the size of the report or another one
          refine ⟨h.size, by simp [settles?_of_held hh], ?_⟩
          constructor
          · rintro hsame ⟨-, h', hmem, hother⟩
            obtain rfl : h = h' := by simpa [hh] using hmem
            exact hother hsame
          · intro hnot
            by_contra hother
            rcases hk with ⟨s, hs, heq⟩ | ⟨h', hmem, heq⟩
            · exact hnot ⟨⟨s, hs, heq⟩, h, hh, hother⟩
            · obtain rfl : h = h' := by simpa [hh] using hmem
              exact hother (Or.inr (Or.inl heq))

end Throttle

/-! ### Runs -/

namespace Session

variable [Clock τ] [BEq α]

/-- What happens to a throttle between two resets: reports, changes of the clock, loops that begin or
cease to run, and timers that run. -/
def isOrdinary : Command τ α → Bool
  | .offer _ | .setClock _ | .runLoop _ | .fire => true
  | .reset | .cancel => false

/-- Without a reset the size that was given out last is that of the last report given out. -/
theorem last_step {s : Session τ α} (hs : s.throttle.Coherent) {c : Command τ α}
    (hc : isOrdinary c = true) :
    (s.step c).1.throttle.last =
      ((s.step c).2.given.getLast?.map Report.size).or s.throttle.last := by
  cases c with
  | reset => simp [isOrdinary] at hc
  | cancel => simp [isOrdinary] at hc
  | setClock now => rfl
  | runLoop b => rfl
  | offer r =>
      cases hk : s.throttle.isKnown r.size with
      | true => simp [step, hs.offer_of_known s.now hk]
      | false =>
          cases hp : s.throttle.windowPassed s.now with
          | true => simp [step, hs.offer_of_passed hk hp, Throttle.giveOut]
          | false => simp [step, hs.offer_of_early hk hp, (Throttle.hold_held_last _ s.now r).2]
  | fire =>
      cases h : s.throttle.timer with
      | none => simp [step, hs.fire_of_idle h]
      | some handle =>
          obtain ⟨l, r, -, -, hfire⟩ := hs.fire_of_waiting h s.now
          simp [step, hfire]

theorem last_after {s : Session τ α} {cs : List (Command τ α)} (hs : s.Looped cs)
    (hcs : ∀ c ∈ cs, isOrdinary c = true) :
    (s.after cs).throttle.last = ((s.given cs).getLast?.map Report.size).or s.throttle.last := by
  induction cs generalizing s with
  | nil => simp
  | cons c rest ih =>
      have hrest : ∀ d ∈ rest, isOrdinary d = true := fun d hd => hcs d (List.mem_cons_of_mem _ hd)
      rw [after_cons, given_cons, ih hs.step hrest, last_step hs.coherent (hcs c List.mem_cons_self),
        List.getLast?_append]
      cases ((s.step c).1.given rest).getLast? <;> simp

/-- What happens to a throttle that is left alone: timers run, the clock changes, and loops begin or
cease to run. -/
def isQuiet : Command τ α → Bool
  | .setClock _ | .runLoop _ | .fire => true
  | .offer _ | .reset | .cancel => false

/-- A throttle that is left alone keeps its point of rest. -/
theorem settles?_after {s : Session τ α} {cs : List (Command τ α)} (hs : s.Looped cs)
    (hcs : ∀ c ∈ cs, isQuiet c = true) :
    (s.after cs).throttle.settles? = s.throttle.settles? := by
  induction cs generalizing s with
  | nil => rfl
  | cons c rest ih =>
      rw [after_cons, ih hs.step fun d hd => hcs d (List.mem_cons_of_mem _ hd)]
      have hc := hcs c List.mem_cons_self
      cases c with
      | fire => exact (hs.coherent.settles?_fire s.now).2
      | setClock now => rfl
      | runLoop b => rfl
      | _ => simp [isQuiet] at hc

/-- A throttle that is new or was just reset has given out no size. -/
theorem last_after_reset (now window : τ) (source : LoopSource) {history : List (Command τ α)}
    (h : history = [] ∨ history.getLast? = some .reset) :
    ((⟨now, .make window source⟩ : Session τ α).after history).throttle.last = none := by
  rcases h with rfl | h
  · rfl
  · obtain ⟨before, rfl⟩ := List.getLast?_eq_some_iff.1 h
    rw [after_append]
    rfl

/-- **A run ends on the latest size unless its last report returns.**  A throttle, new or just reset, is
met by reports, changes of the clock and timers that run, of which `r` is the last report; a loop is there
all the time.  Once the timer has run, the size that was given out last is that of `r`, unless `r` returned
to the size that was given out last while a report of another size was held. -/
theorem ends_on_latest_iff (now window : τ) {source : LoopSource}
    {history before later : List (Command τ α)} (r : Report α)
    (hloop : source.Lasts (history ++ (before ++ .offer r :: later ++ [.fire])))
    (hhistory : history = [] ∨ history.getLast? = some .reset)
    (hbefore : ∀ c ∈ before, isOrdinary c = true) (hlater : ∀ c ∈ later, isQuiet c = true) :
    let start := (⟨now, .make window source⟩ : Session τ α).after history
    ∃ g, (start.given (before ++ .offer r :: later ++ [.fire])).getLast? = some g ∧
      (SameSize g.size r.size ↔ ¬ (start.after before).throttle.Returns r.size) := by
  intro start
  have hstart : start.Looped (before ++ .offer r :: later ++ [.fire]) :=
    (looped_make now window hloop).after
  have hmet : (start.after before).Looped (.offer r :: (later ++ [.fire])) := by
    rw [List.append_assoc] at hstart
    exact hstart.after
  obtain ⟨size, hsize, hiff⟩ := hmet.coherent.settles?_offer_same_iff (start.after before).now r
  have hoffered := hmet.step
  -- the later commands and the timer lead to the point of rest after the report
  have hordinary : ∀ c ∈ before ++ .offer r :: later ++ [.fire], isOrdinary c = true := by
    intro c hc
    simp only [List.mem_append, List.mem_cons, List.not_mem_nil, or_false] at hc
    rcases hc with (hc | rfl | hc) | rfl
    · exact hbefore c hc
    · rfl
    · have hquiet := hlater c hc
      cases c <;> first | rfl | simp [isQuiet] at hquiet
    · rfl
  have hrest : (start.after (before ++ .offer r :: later ++ [.fire])).throttle.last = some size := by
    rw [after_append, after_append, after_cons, after_cons, after_nil]
    calc (((((start.after before).step (.offer r)).1.after later).step .fire).1.throttle).last
        = (((start.after before).step (.offer r)).1.after later).throttle.settles? :=
          (hoffered.after.coherent.settles?_fire _).1
      _ = ((start.after before).step (.offer r)).1.throttle.settles? :=
          settles?_after hoffered.of_append hlater
      _ = some size := hsize
  rw [last_after hstart hordinary, last_after_reset now window source hhistory, Option.or_none,
    Option.map_eq_some_iff] at hrest
  obtain ⟨g, hg, rfl⟩ := hrest
  exact ⟨g, hg, hiff⟩

/-! ### A run that ends on another size -/

/-- A report of a square canvas. -/
def square (side : Int) : Report Size :=
  ⟨⟨.whole side, .whole side⟩, none⟩

/-- A canvas that grows and shrinks back within a window of a tenth of a second, before the report of
the size that it came back to. -/
def growing : List (Command Float Size) :=
  [.offer (square 1), .setClock 0.01, .offer (square 2), .setClock 0.02]

/-- The rule at a canvas that grows and shrinks back, and is left alone after its last report. -/
theorem ends_on_latest_iff_growing :
    (LoopSource.Lasts (.found true) (growing ++ .offer (square 1) :: [.setClock 0.2] ++ [.fire]) ∧
      (∀ c ∈ growing, isOrdinary c = true) ∧
      ∀ c ∈ [Command.setClock (α := Size) (0.2 : Float)], isQuiet c = true) ∧
    let start : Session Float Size := ⟨0.0, .make 0.1 (.found true)⟩
    ∃ g, (start.given (growing ++ .offer (square 1) :: [.setClock 0.2] ++ [.fire])).getLast? = some g ∧
      (SameSize g.size (square 1).size ↔
        ¬ (start.after growing).throttle.Returns (square 1).size) := by
  have hloop : LoopSource.Lasts (.found true)
      ([] ++ (growing ++ .offer (square 1) :: [.setClock 0.2] ++ [.fire])) :=
    Or.inr ⟨rfl, by simp [growing]⟩
  have hbefore : ∀ c ∈ growing, isOrdinary c = true := by simp [growing, isOrdinary]
  have hlater : ∀ c ∈ [Command.setClock (α := Size) (0.2 : Float)], isQuiet c = true := by
    simp [isQuiet]
  exact ⟨⟨hloop, hbefore, hlater⟩,
    ends_on_latest_iff 0.0 0.1 (square 1) hloop (Or.inl rfl) hbefore hlater⟩

/-- The size that is given out last is the one that the canvas left again. -/
theorem ends_on_overtaken_size :
    let start : Session Float Size := ⟨0.0, .make 0.1 .given⟩
    ∃ g, (start.given (growing ++ .offer (square 1) :: [.setClock 0.2] ++ [.fire])).getLast? = some g ∧
      (g.size == (square 2).size) = true ∧ ¬ SameSize g.size (square 1).size := by
  intro start
  have hrun : ((start.given (growing ++ .offer (square 1) :: [.setClock 0.2] ++ [.fire])).getLast?.any
      fun g => (g.size == (square 2).size) && !(g.size == (square 1).size)
        && !((square 1).size == g.size)) = true := by decide +kernel
  obtain ⟨g, hg, hsizes⟩ := (Option.any_eq_true _ _).1 hrun
  simp only [Bool.and_eq_true, Bool.not_eq_true'] at hsizes
  obtain ⟨⟨htwo, hone⟩, hone'⟩ := hsizes
  refine ⟨g, hg, htwo, ?_⟩
  rintro (h | h | h)
  · rw [h] at htwo
    exact absurd htwo (by decide)
  · simp [hone] at h
  · simp [hone'] at h

end Session

end Resize

end SketchHost
