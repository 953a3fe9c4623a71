/-
**Which injections end too late.**

The injections of several attempts may be under way at once and end in any order.  An attempt counts
until another one begins, be it only to be refused, or the runner is closed; numbers of attempts grow, so
an attempt that does not count any more never counts again.  An injection that ends changes nothing, so
whether it ends too late is a matter of what began between its beginning and its end.

* `Runner.Command.supersedes` — another attempt begins, or the runner is closed;
* `Runner.Session.inFlight` — the attempts whose injection has begun and not ended;
* `Runner.Session.isPast_step`, `isPast_after` — an attempt is past once a command supersedes it;
* `Runner.Session.Numbered` — the attempts in flight have numbers of their own, up to the count;
* `Runner.Session.stale_iff_superseded` — **an injection ends too late if and only if its attempt was
  superseded**, and at most one of those in flight does not.
-/

import SketchHost.Proofs.Run.Isolation
import Mathlib.Data.List.Perm.Subperm

set_option relaxedAutoImplicit false
set_option autoImplicit false

namespace SketchHost

/-- An outcome that comes too late has no text for the user. -/
theorem Outcome.text?_of_stale {o : Outcome} (h : o.stale = true) : o.text? = none := by
  cases o with
  | loaded code late => rfl
  | failedLate => rfl
  | _ => simp [stale] at h

namespace Runner

variable {τ : Type}

/-! ### Attempts that do not count any more -/

/-- An injection ends too late exactly if its attempt does not count any more. -/
@[simp] theorem stale_finish (a : Attempt) (fault? : Option LoadFault) (r : Runner τ) :
    (r.finish a fault?).2.stale = r.isPast a := by
  cases fault? with
  | none => rfl
  | some f =>
      rw [finish]
      cases h : r.isPast a <;> simp [Outcome.stale]

/-- A new attempt counts, and its number is that of the attempts so far. -/
theorem begin_eq_ok {id source : String} {r : Runner τ} {a : Attempt}
    (h : (r.begin id source).2 = .ok a) :
    a.number = r.count + 1 ∧ (r.begin id source).1.current = some a := by
  unfold begin at h ⊢
  dsimp only at h ⊢
  split at h
  · obtain rfl := Except.ok.inj h
    exact ⟨rfl, rfl⟩
  · simp at h

/-- The attempt that counts after another one began is new. -/
theorem number_of_begin {id source : String} {r : Runner τ} {b : Attempt}
    (h : b ∈ (r.begin id source).1.current) : b.number = r.count + 1 := by
  unfold begin at h
  dsimp only at h
  split at h
  · obtain rfl := Option.some.inj h
    rfl
  · simp at h

/-- What an attempt had begun with is past once another one has. -/
theorem isPast_begin {id source : String} {r : Runner τ} {a : Attempt} (h : a.number ≤ r.count) :
    (r.begin id source).1.isPast a = true := by
  rw [isPast, Option.all_eq_true]
  intro b hb
  have := number_of_begin hb
  simp only [bne_iff_ne, ne_eq]
  omega

namespace Command

/-- Another attempt begins, or the runner is closed. -/
def supersedes : Command τ → Bool
  | start _ _ | close => true
  | _ => false

end Command

namespace Session

variable [Resize.Clock τ]

/-- The number of attempts never goes down. -/
theorem count_step (s : Session τ) (c : Command τ) :
    s.runner.count ≤ (s.step c).1.runner.count := by
  cases c with
  | start id source => simp
  | finish a fault? => simp [step]
  | _ => exact Nat.le_refl _

/-- An attempt that has begun is past after a command exactly if it was so before, or the command
supersedes it. -/
theorem isPast_step {s : Session τ} {a : Attempt} (h : a.number ≤ s.runner.count) (c : Command τ) :
    (s.step c).1.runner.isPast a = (s.runner.isPast a || c.supersedes) := by
  cases c with
  | start id source => simp [Command.supersedes, isPast_begin h]
  | close => simp [step, isPast, Command.supersedes]
  | finish b fault? => simp [step, Command.supersedes]
  | _ => exact (Bool.or_false _).symm

/-- The same for a run, by induction on its commands. -/
theorem isPast_after {s : Session τ} {a : Attempt} (h : a.number ≤ s.runner.count)
    (cs : List (Command τ)) :
    (s.after cs).runner.isPast a = (s.runner.isPast a || cs.any Command.supersedes) := by
  induction cs generalizing s with
  | nil => simp
  | cons c rest ih =>
      rw [after_cons, ih (Nat.le_trans h (count_step s c)), isPast_step h, List.any_cons, Bool.or_assoc]

/-! ### Injections in flight -/

/-- The attempt whose injection begins with a command. -/
def begun? (s : Session τ) : Command τ → Option Attempt
  | .start id source => (s.runner.begin id source).2.toOption
  | _ => none

/-- The attempts in flight after a command: one more if an injection begins, one less if one ends. -/
def nextInFlight (s : Session τ) (flying : List Attempt) : Command τ → List Attempt
  | .finish a _ => flying.erase a
  | c => flying ++ (s.begun? c).toList

/-- The attempts whose injection has begun and not ended after several commands. -/
def inFlight (s : Session τ) (flying : List Attempt) : List (Command τ) → List Attempt
  | [] => flying
  | c :: rest => inFlight (s.step c).1 (s.nextInFlight flying c) rest

/-- The attempts in flight have numbers of their own, up to the number of attempts so far. -/
structure Numbered (s : Session τ) (flying : List Attempt) : Prop where
  distinct : (flying.map Attempt.number).Nodup
  counted : ∀ a ∈ flying, a.number ≤ s.runner.count

omit [Resize.Clock τ] in
theorem numbered_nil (s : Session τ) : s.Numbered [] := ⟨List.nodup_nil, by simp⟩

/-- Every command leaves the attempts in flight with numbers of their own. -/
theorem Numbered.step {s : Session τ} {flying : List Attempt} (h : s.Numbered flying)
    (c : Command τ) : (s.step c).1.Numbered (s.nextInFlight flying c) := by
  have hcounted : ∀ a ∈ flying, a.number ≤ (s.step c).1.runner.count := fun a ha =>
    Nat.le_trans (h.counted a ha) (count_step s c)
  -- all commands but two leave the attempts in flight as they are
  have hsame : s.nextInFlight flying c = flying → (s.step c).1.Numbered (s.nextInFlight flying c) :=
    fun heq => by rw [heq]; exact ⟨h.distinct, hcounted⟩
  cases c with
  | finish a fault? =>
      have hsub : (flying.erase a).Sublist flying := List.erase_sublist
      exact ⟨h.distinct.sublist (hsub.map _), fun b hb => hcounted b (hsub.subset hb)⟩
  | start id source =>
      cases hb : (s.runner.begin id source).2 with
      | error f => exact hsame (by simp [nextInFlight, begun?, hb, Except.toOption])
      | ok a =>
          obtain ⟨hnumber, -⟩ := begin_eq_ok hb
          have heq : s.nextInFlight flying (.start id source) = flying ++ [a] := by
            simp [nextInFlight, begun?, hb, Except.toOption]
          rw [heq]
          refine ⟨?_, fun b hmem => ?_⟩
          · -- the new number is above all numbers in flight
            rw [List.map_append, List.map_singleton, List.nodup_append]
            refine ⟨h.distinct, by simp, fun n hn m hm heq => ?_⟩
            obtain ⟨b, hmem, rfl⟩ := List.mem_map.1 hn
            have := h.counted b hmem
            have : m = a.number := by simpa using hm
            omega
          · rcases List.mem_append.1 hmem with hold | hnew
            · exact hcounted b hold
            · obtain rfl : b = a := by simpa using hnew
              simp [hnumber]
  | _ => exact hsame (by simp [nextInFlight, begun?])

/-- The same for a run, by induction on its commands. -/
theorem Numbered.after {s : Session τ} {flying : List Attempt} (h : s.Numbered flying)
    (cs : List (Command τ)) : (s.after cs).Numbered (s.inFlight flying cs) := by
  induction cs generalizing s flying with
  | nil => exact h
  | cons c rest ih => exact ih (h.step c)

omit [Resize.Clock τ] in
/-- At most one of the attempts in flight counts. -/
theorem Numbered.length_filter_le_one {s : Session τ} {flying : List Attempt}
    (h : s.Numbered flying) : (flying.filter fun a => !s.runner.isPast a).length ≤ 1 := by
  cases hc : s.runner.current with
  | none => simp [isPast, hc]
  | some b =>
      set counting := flying.filter fun a => !s.runner.isPast a
      have hsub : counting.map Attempt.number ⊆ [b.number] := by
        intro n hn
        obtain ⟨a, ha, rfl⟩ := List.mem_map.1 hn
        have hcounts : b.number = a.number := by
          simpa [isPast, hc] using (List.mem_filter.1 ha).2
        simp [hcounts]
      have hdistinct : (counting.map Attempt.number).Nodup :=
        h.distinct.sublist (List.filter_sublist.map _)
      simpa using (hdistinct.subperm hsub).length_le

/-- **An injection ends too late if and only if its attempt was superseded.**  After any run the
injection of an attempt begins, and after any further commands it ends, with a fault or without.  Then
the outcome is late exactly if one of these commands began another attempt, even one that was refused, or
closed the runner, and a late outcome has no text for the user.  The end of the injection changes
neither the runner nor its channel.  Of all the injections in flight at this moment, however each of them
would end, at most one would not be late. -/
theorem stale_iff_superseded (s : Session τ) (before later : List (Command τ)) (id source : String)
    {a : Attempt} (hbegun : ((s.after before).runner.begin id source).2 = .ok a)
    (fault? : Option LoadFault) (faults : Attempt → Option LoadFault) :
    let cs := before ++ .start id source :: later
    let ended := (s.after cs).step (.finish a fault?)
    (∃ o, ended.2.outcome = some o ∧
      (o.stale = true ↔ ∃ c ∈ later, c.supersedes = true) ∧ (o.stale = true → o.text? = none)) ∧
    ended.1 = s.after cs ∧
    ((s.inFlight [] cs).filter fun b =>
      !((s.after cs).runner.finish b (faults b)).2.stale).length ≤ 1 := by
  intro cs ended
  obtain ⟨hnumber, hcurrent⟩ := begin_eq_ok hbegun
  -- the attempt counts when its injection begins, so only later commands decide
  have hpast : (s.after cs).runner.isPast a = later.any Command.supersedes := by
    have hfirst : ((s.after before).step (.start id source)).1.runner.isPast a = false := by
      simp [isPast, hcurrent]
    have hcount : a.number ≤ ((s.after before).step (.start id source)).1.runner.count := by
      simp [hnumber]
    have hsplit : s.after cs = ((s.after before).step (.start id source)).1.after later := by
      simp [cs, Session.after]
    rw [hsplit, isPast_after hcount, hfirst, Bool.false_or]
  refine ⟨⟨((s.after cs).runner.finish a fault?).2, rfl, ?_, Outcome.text?_of_stale⟩, ?_, ?_⟩
  · rw [stale_finish, hpast, List.any_eq_true]
  · simp [ended, step]
  · simpa using ((numbered_nil s).after cs).length_filter_le_one

/-- Two attempts that begin while the injection of an earlier one is under way; the first of them is a
sketch that cannot be read. -/
def crossing : List (Command Float) :=
  [.start "sketch-2" "setup=(", .setClock 0.1, .start "sketch-3" "line();"]

/-- An injection that fails while two attempts began is late and has no text; of the two injections in
flight, one would not be late. -/
theorem stale_iff_superseded_crossing :
    ∃ a, (opened.runner.begin "sketch-1" "draw();").2 = .ok a ∧
      ((opened.step (.start "sketch-1" "draw();")).1.step
        (.start "sketch-2" "setup=(")).2.outcome.isSome ∧
      (∃ o, ((opened.after (.start "sketch-1" "draw();" :: crossing)).step
          (.finish a (some ⟨"no such file", none⟩))).2.outcome = some o ∧
        o.stale = true ∧ o.text? = none) ∧
      (opened.inFlight [] (.start "sketch-1" "draw();" :: crossing)).length = 2 ∧
      ((opened.inFlight [] (.start "sketch-1" "draw();" :: crossing)).filter fun b =>
        !((opened.after (.start "sketch-1" "draw();" :: crossing)).runner.finish b none).2.stale).length
          ≤ 1 := by
  obtain ⟨a, ha⟩ : ∃ a, (opened.runner.begin "sketch-1" "draw();").2.toOption = some a :=
    Option.isSome_iff_exists.1 (by decide +kernel)
  have hbegun : (opened.runner.begin "sketch-1" "draw();").2 = .ok a := by
    cases hb : (opened.runner.begin "sketch-1" "draw();").2 with
    | ok b => simpa [hb, Except.toOption] using ha
    | error f => simp [hb, Except.toOption] at ha
  obtain ⟨⟨o, ho, hstale, htext⟩, -, hone⟩ :=
    stale_iff_superseded opened [] crossing "sketch-1" "draw();" hbegun
      (some ⟨"no such file", none⟩) fun _ => none
  have hlate : o.stale = true := hstale.2 ⟨_, List.mem_cons_self, rfl⟩
  exact ⟨a, hbegun, by decide +kernel, ⟨o, ho, hlate, htext hlate⟩, by decide +kernel, hone⟩

end Session

end Runner

end SketchHost
