/-
**A channel is closed for good.**

Closing a channel takes its timer back, gives up the size that is held, and removes all handlers.
Handlers may be registered again afterwards, but no message reaches them: a closed channel does not look
at messages.  A timer that was set before cannot run any more either, because the timers of the loop are
at any time exactly the one that the throttle takes back.  Nothing opens a channel again, so nothing is
called ever after.

* `Channel.Trace.IsSilent` — a command leads to nothing;
* `Channel.OwnsTimers`, `Channel.Session.ownsTimers_after` — the only timer is the one that waits for a
  size, in every state that a channel can reach;
* `Channel.Shut` — a channel is closed, holds no size, and has no timer;
* `Channel.Session.shut_step`, `Channel.Session.isSilent_trace` — it stays so, and nothing is called;
* `Channel.Session.silent_after_close` — **after it was closed a channel handles no message and calls no
  handler**.
-/

import SketchHost.Proofs.Channel.Routing
import SketchHost.Proofs.Resize.Timers

set_option relaxedAutoImplicit false
set_option autoImplicit false

namespace SketchHost

namespace Channel

variable {τ : Type}

/-- A command leads to nothing: no message is handled, and no handler is called. -/
structure Trace.IsSilent (t : Trace) : Prop where
  unhandled : ∀ v ∈ t.verdict?, v.isHandled = false
  uncalled : t.calls = []

/-! ### Timers -/

/-- The timers of the throttle are the one that waits, if there is one. -/
def OwnsTimers (c : Channel τ) : Prop :=
  ∀ t ∈ c.throttle, t.OwnsTimers

/-- The throttle of a channel that was built has no timers. -/
theorem ownsTimers_build {o : Options} {c : Channel Float} (h : o.build = .ok c) : c.OwnsTimers := by
  intro t ht
  rcases throttle_eq_ok (handlers_throttle_of_build h).2 with ⟨-, hnone⟩ | ⟨window, hmade⟩
  · simp [hnone] at ht
  · obtain rfl : Resize.Throttle.make window o.loop = t := by simpa [hmade] using ht
    exact Resize.Throttle.ownsTimers_make window o.loop

section Clock

variable [Resize.Clock τ]

/-- A message that sets or drops a timer does so by way of the throttle. -/
theorem Ran.ownsTimers {react : Call → Reaction} {now : τ} {c : Channel τ} {t : MessageType}
    {payload : Fields} {handler : Handler} {h : Handled τ} (hran : Ran react now c t payload handler h)
    (hc : c.OwnsTimers) : h.after.OwnsTimers := by
  cases hran with
  | offered hcall hthrottle =>
      intro u hu
      obtain rfl := Option.some.inj hu
      exact (hc _ hthrottle).offer now _
  | _ => exact hc

theorem ownsTimers_handle (react : Call → Reaction) (now : τ) (e : Event) {c : Channel τ}
    (hequipped : c.Equipped) (hc : c.OwnsTimers) : (c.handle react now e).after.OwnsTimers := by
  rcases routes_or_ignores react now hequipped e with ⟨-, t, handler, payload, -, -, -, hran⟩ | ⟨-, h⟩
  · exact hran.ownsTimers hc
  · rw [h.unchanged]
    exact hc

end Clock

namespace Session

variable [Resize.Clock τ]

/-- Every command leaves a channel no other timer than the one that waits. -/
theorem ownsTimers_step {s : Session τ} (hequipped : s.channel.Equipped) (hs : s.channel.OwnsTimers)
    (c : Command τ) : (s.step c).channel.OwnsTimers := by
  cases c with
  | message e react => exact ownsTimers_handle react s.now e hequipped hs
  | addOrigin origin =>
      rw [step, addOrigin]
      cases Origin.add s.channel.allowed origin <;> exact hs
  | register type h hother =>
      rw [step, register?]
      split <;> exact hs
  | runLoop b =>
      intro t ht
      obtain ⟨u, hu, rfl⟩ := Option.map_eq_some_iff.1 ht
      exact (hs u hu).runLoop b
  | fire =>
      intro t ht
      cases hthrottle : s.channel.throttle with
      | none => simp [step, Channel.fire, hthrottle] at ht
      | some u =>
          obtain rfl : (u.fire s.now).1.after = t := by simpa [step, Channel.fire, hthrottle] using ht
          exact (hs u hthrottle).fire s.now
  | reset =>
      intro t ht
      obtain ⟨u, hu, rfl⟩ := Option.map_eq_some_iff.1 ht
      exact (hs u hu).reset
  | close =>
      intro t ht
      obtain ⟨u, hu, rfl⟩ := Option.map_eq_some_iff.1 ht
      exact (hs u hu).cancel
  | _ => exact hs

/-- So does every run. -/
theorem ownsTimers_after {s : Session τ} (hequipped : s.channel.Equipped) (hs : s.channel.OwnsTimers)
    (cs : List (Command τ)) : (s.after cs).channel.OwnsTimers := by
  induction cs generalizing s with
  | nil => exact hs
  | cons c rest ih => exact ih (equipped_step hequipped c) (ownsTimers_step hequipped hs c)

end Session

/-! ### Closed channels -/

/-- A channel is closed, holds no size, and has no timer. -/
structure Shut (c : Channel τ) : Prop where
  closed : c.closed = true
  idle : ∀ t ∈ c.throttle, t.IsIdle

/-- Closing shuts a channel that has no other timer than the one that waits. -/
theorem OwnsTimers.shut_close {c : Channel τ} (hc : c.OwnsTimers) : c.close.Shut := by
  refine ⟨rfl, fun t ht => ?_⟩
  obtain ⟨u, hu, rfl⟩ := Option.map_eq_some_iff.1 ht
  exact (hc u hu).isIdle_cancel

section Clock

variable [Resize.Clock τ]

/-- A channel that is shut ignores messages. -/
theorem Shut.handle_eq {c : Channel τ} (hc : c.Shut) (react : Call → Reaction) (now : τ) (e : Event) :
    c.handle react now e = ⟨c, .ignored, []⟩ := by
  rw [handle, hc.closed]
  rfl

end Clock

/-- A channel that is shut has no timers to run. -/
theorem Shut.fire_eq {c : Channel τ} (hc : c.Shut) (now : τ) : c.fire now = (c, 0, []) := by
  cases ht : c.throttle with
  | none => simp [fire, ht]
  | some t =>
      simp only [fire, ht, (hc.idle t ht).fire_eq now, List.map_nil]
      rw [← ht]

namespace Session

variable [Resize.Clock τ]

/-- No command opens a channel that is shut. -/
theorem shut_step {s : Session τ} (hs : s.channel.Shut) (c : Command τ) : (s.step c).channel.Shut := by
  cases c with
  | message e react =>
      rw [step, hs.handle_eq]
      exact hs
  | addOrigin origin =>
      rw [step, addOrigin]
      cases Origin.add s.channel.allowed origin <;> exact ⟨hs.closed, hs.idle⟩
  | register type h hother =>
      rw [step, register?]
      split <;> exact ⟨hs.closed, hs.idle⟩
  | runLoop b =>
      refine ⟨hs.closed, fun t ht => ?_⟩
      obtain ⟨u, hu, rfl⟩ := Option.map_eq_some_iff.1 ht
      exact (hs.idle u hu).runLoop b
  | fire =>
      rw [step, hs.fire_eq]
      exact hs
  | reset =>
      refine ⟨hs.closed, fun t ht => ?_⟩
      obtain ⟨u, hu, rfl⟩ := Option.map_eq_some_iff.1 ht
      exact (hs.idle u hu).reset
  | close =>
      refine ⟨rfl, fun t ht => ?_⟩
      obtain ⟨u, hu, rfl⟩ := Option.map_eq_some_iff.1 ht
      exact (hs.idle u hu).cancel
  | _ => exact ⟨hs.closed, hs.idle⟩

/-- A command to a channel that is shut leads to nothing. -/
theorem isSilent_trace {s : Session τ} (hs : s.channel.Shut) (c : Command τ) : (s.trace c).IsSilent := by
  cases c with
  | message e react =>
      simp only [trace, hs.handle_eq]
      exact ⟨by simp [Verdict.isHandled], rfl⟩
  | fire =>
      simp only [trace, hs.fire_eq]
      exact ⟨by simp, rfl⟩
  | _ => exact ⟨by simp [trace], rfl⟩

/-- A channel that is shut stays so, and leads to nothing any more. -/
theorem shut_after {s : Session τ} (hs : s.channel.Shut) (cs : List (Command τ)) :
    (s.after cs).channel.Shut ∧ ∀ t ∈ s.traces cs, t.IsSilent := by
  induction cs generalizing s with
  | nil => exact ⟨hs, by simp [traces]⟩
  | cons c rest ih =>
      obtain ⟨hshut, hrest⟩ := ih (shut_step hs c)
      refine ⟨hshut, fun t ht => ?_⟩
      rcases List.mem_cons.1 ht with rfl | ht
      · exact isSilent_trace hs c
      · exact hrest t ht

/-- **After it was closed a channel handles no message and calls no handler.**  A channel that was built
is met by any commands, then closed, and then met by any commands again, with handlers registered among
them.  No message of the second run is handled, and neither a handler nor a callback is called in it, by
a message or by a timer.  No timer is left that could run: the one that may have waited for a size when
the channel was closed is gone. -/
theorem silent_after_close {o : Options} {c₀ : Channel Float} (hbuilt : o.build = .ok c₀)
    (start : Float) (before later : List (Command Float)) :
    let shut := (⟨start, c₀⟩ : Session Float).after (before ++ [.close])
    (∀ t ∈ shut.traces later, t.IsSilent) ∧
      ∀ t ∈ (shut.after later).channel.throttle, t.liveTimers = [] := by
  intro shut
  have howns : ((⟨start, c₀⟩ : Session Float).after before).channel.OwnsTimers :=
    ownsTimers_after (equipped_build hbuilt) (ownsTimers_build hbuilt) before
  have hshut : shut.channel.Shut := by
    rw [show shut = _ from after_append _ before [.close]]
    exact howns.shut_close
  obtain ⟨hstays, hsilent⟩ := shut_after hshut later
  exact ⟨hsilent, fun t ht => (hstays.idle t ht).live⟩

/-- A size that the frame of the porch reports. -/
def reported (width height : Int) : Event :=
  ⟨"http://localhost", some "frame-1",
    .record [("type", .text "resize"), ("width", .int width), ("height", .int height)]⟩

/-- Two sizes within a window: the second one is held, and a timer waits for it. -/
def resizing : List (Command Float) :=
  [.message (reported 300 200) fun _ => .done, .setClock 0.01,
    .message (reported 320 200) fun _ => .done]

/-- An owner who does not give up: handlers are registered, the channel is reset, and messages and timers
come. -/
def insisting : List (Command Float) :=
  [.register "resize" (.named "record") (named_ne_callback "record"),
    .message (reported 340 200) fun _ => .raised, .setClock 0.5, .fire, .reset,
    .message (reported 360 200) fun _ => .done]

/-- The size that waits when the channel is closed is never given out, and the handler that is registered
afterwards is never called. -/
theorem silent_after_close_resizing :
    ∃ c₀, porch.build = .ok c₀ ∧
      (((⟨0, c₀⟩ : Session Float).after resizing).channel.throttle.any fun t =>
        t.held.isSome && !t.liveTimers.isEmpty) = true ∧
      let shut := (⟨0, c₀⟩ : Session Float).after (resizing ++ [.close])
      (∀ t ∈ shut.traces insisting, t.IsSilent) ∧
        ∀ t ∈ (shut.after insisting).channel.throttle, t.liveTimers = [] := by
  refine ⟨_, rfl, by decide +kernel, ?_⟩
  exact silent_after_close (o := porch) rfl 0 resizing insisting

end Session

end Channel

end SketchHost
