/-
**Runs of a channel.**

A run of a channel is a list of commands: messages come in, and between them its owner adds origins,
registers handlers, changes what is expected, resets or closes it, while time passes, timers run, and a
loop begins or ceases to run where messages come in.

* `Channel.Command`, `Channel.Session` — what can happen to a channel, and a channel with its clock;
* `Channel.Session.step`, `Channel.Session.after` — one command, and several;
* `Channel.Session.trace`, `Channel.Session.traces` — what they lead to: the verdict on a message, and
  calls of handlers;
* `Channel.Equipped` — a channel with a callback for sizes has a throttle for them;
* `Channel.equipped_build`, `Channel.Session.equipped_after` — a channel that was built stays so.
-/

import SketchHost.Channel.Build

set_option relaxedAutoImplicit false
set_option autoImplicit false

namespace SketchHost

namespace Channel

variable {τ : Type}

/-! ### Commands -/

/-- What can happen to a channel.  A handler that is registered is never one of the callbacks that the
channel was built with. -/
inductive Command (τ : Type) where
  | message (e : Event) (react : Call → Reaction)
  | addOrigin (origin : String)
  | register (type : String) (h : Handler) (other : h ≠ .callback)
  | expectId (id : Option String)
  | requireId (b : Bool)
  | resolve (frame : Option String)
  | runLoop (b : Bool)
  | setClock (now : τ)
  | fire
  | reset
  | close

theorem named_ne_callback (name : String) : Handler.named name ≠ .callback :=
  nofun

/-- A channel and the reading of its clock. -/
structure Session (τ : Type) where
  now : τ
  channel : Channel τ

/-- What an operation that may be refused leaves: the state after it, or the one before it. -/
def orUnchanged {ε : Type} (c : Channel τ) : Except ε (Channel τ) → Channel τ
  | .ok c' => c'
  | .error _ => c

namespace Session

variable [Resize.Clock τ]

/-- One command. -/
def step (s : Session τ) : Command τ → Session τ
  | .message e react => ⟨s.now, (s.channel.handle react s.now e).after⟩
  | .addOrigin origin => ⟨s.now, s.channel.orUnchanged (s.channel.addOrigin origin)⟩
  | .register type h _ => ⟨s.now, s.channel.orUnchanged (s.channel.register? type h)⟩
  | .expectId id => ⟨s.now, s.channel.expectId id⟩
  | .requireId b => ⟨s.now, s.channel.requireId b⟩
  | .resolve frame => ⟨s.now, s.channel.resolve frame⟩
  | .runLoop b => ⟨s.now, s.channel.runLoop b⟩
  | .setClock now => ⟨now, s.channel⟩
  | .fire => ⟨s.now, (s.channel.fire s.now).1⟩
  | .reset => ⟨s.now, s.channel.reset⟩
  | .close => ⟨s.now, s.channel.close⟩

/-- The state after several commands. -/
def after (s : Session τ) (cs : List (Command τ)) : Session τ :=
  cs.foldl step s

@[simp] theorem after_nil (s : Session τ) : s.after [] = s := rfl

@[simp] theorem after_cons (s : Session τ) (c : Command τ) (cs : List (Command τ)) :
    s.after (c :: cs) = (s.step c).after cs := rfl

theorem after_append (s : Session τ) (cs ds : List (Command τ)) :
    s.after (cs ++ ds) = (s.after cs).after ds := by
  simp [after, List.foldl_append]

end Session

/-! ### Traces -/

/-- What one command leads to: what becomes of a message, if it brings one, and the calls of handlers. -/
structure Trace where
  verdict? : Option Verdict
  calls : List Call

namespace Session

variable [Resize.Clock τ]

/-- What one command leads to.  Only messages and timers call handlers. -/
def trace (s : Session τ) : Command τ → Trace
  | .message e react =>
      let h := s.channel.handle react s.now e
      ⟨some h.verdict, h.calls⟩
  | .fire => ⟨none, (s.channel.fire s.now).2.2⟩
  | _ => ⟨none, []⟩

/-- What each of several commands leads to. -/
def traces (s : Session τ) : List (Command τ) → List Trace
  | [] => []
  | c :: rest => s.trace c :: traces (s.step c) rest

end Session

/-! ### What a message leaves as it is -/

/-- A state differs from another one at most in what the throttle has met. -/
structure OnlyThrottle (c d : Channel τ) : Prop where
  rest : d = { c with throttle := d.throttle }
  kept : d.throttle.isSome = c.throttle.isSome

theorem onlyThrottle_refl (c : Channel τ) : OnlyThrottle c c := ⟨rfl, rfl⟩

theorem OnlyThrottle.handlers_eq {c d : Channel τ} (h : OnlyThrottle c d) : d.handlers = c.handlers := by
  rw [h.rest]

theorem OnlyThrottle.expectedId_eq {c d : Channel τ} (h : OnlyThrottle c d) :
    d.expectedId = c.expectedId := by
  rw [h.rest]

theorem onlyThrottle_reset (c : Channel τ) : OnlyThrottle c c.reset := ⟨rfl, by simp [reset]⟩

theorem onlyThrottle_runLoop (b : Bool) (c : Channel τ) : OnlyThrottle c (c.runLoop b) :=
  ⟨rfl, by simp [runLoop]⟩

section Clock

variable [Resize.Clock τ]

theorem onlyThrottle_callBack (react : Call → Reaction) (now : τ) (c : Channel τ) (type : MessageType)
    (payload : Fields) : OnlyThrottle c (c.callBack react now type payload).after := by
  cases type with
  | resize =>
      simp only [callBack]
      split
      · exact onlyThrottle_refl c
      · exact onlyThrottle_refl c
      · exact onlyThrottle_refl c
      · next ht => exact ⟨rfl, by simp [ht]⟩
  | _ =>
      simp only [callBack]
      split <;> exact onlyThrottle_refl c

/-- A message changes at most the throttle. -/
theorem onlyThrottle_handle (react : Call → Reaction) (now : τ) (e : Event) (c : Channel τ) :
    OnlyThrottle c (c.handle react now e).after := by
  rw [handle]
  split
  · exact onlyThrottle_refl c
  · split
    · exact onlyThrottle_refl c
    · rw [dispatch]
      split
      · exact onlyThrottle_refl c
      · exact onlyThrottle_refl c
      · exact onlyThrottle_callBack react now c _ _

end Clock

/-- So do timers. -/
theorem onlyThrottle_fire (now : τ) (c : Channel τ) : OnlyThrottle c (c.fire now).1 := by
  rw [fire]
  split
  · exact onlyThrottle_refl c
  · next ht => exact ⟨rfl, by simp [ht]⟩

/-! ### Callbacks for sizes -/

/-- A channel that hands sizes to the callback it was built with has a throttle for them. -/
def Equipped (c : Channel τ) : Prop :=
  c.handler? .resize = some .callback → c.throttle.isSome = true

theorem OnlyThrottle.equipped {c d : Channel τ} (h : OnlyThrottle c d) (hc : c.Equipped) :
    d.Equipped := by
  intro hd
  rw [h.kept]
  refine hc ?_
  rwa [handler?, h.handlers_eq] at hd

/-- The handler of a type after one was registered. -/
theorem handler?_register (t u : MessageType) (h : Handler) (c : Channel τ) :
    (c.register t h).handler? u = if u = t then some h else c.handler? u := by
  by_cases hut : u = t
  · simp [handler?, register, setHandler, hut]
  · have hne : (u == t) = false := beq_eq_false_iff_ne.2 hut
    simp only [handler?, register, setHandler, List.lookup_cons, hne, hut, if_false]
    -- the entries that go are those of the other type
    induction c.handlers with
    | nil => rfl
    | cons entry rest ih =>
        obtain ⟨v, k⟩ := entry
        by_cases hvt : v = t
        · simp [hvt, List.lookup_cons, hne, ih]
        · simp [hvt, List.lookup_cons, ih]

/-- A handler that is registered takes sizes away from the callback. -/
theorem Equipped.register {c : Channel τ} (hc : c.Equipped) (t : MessageType) {h : Handler}
    (hother : h ≠ .callback) : (c.register t h).Equipped := by
  intro hd
  rw [handler?_register] at hd
  split at hd
  · exact absurd (Option.some.inj hd) hother
  · exact hc hd

/-- A callback that is found among those that a channel is built with is one of them. -/
theorem contains_of_lookup_callbacks {t : MessageType} {callbacks : List MessageType} {h : Handler}
    (hl : (callbacks.map fun t => (t, Handler.callback)).lookup t = some h) :
    callbacks.contains t = true := by
  induction callbacks with
  | nil => simp at hl
  | cons u rest ih =>
      rw [List.contains_cons]
      cases htu : t == u with
      | true => rfl
      | false =>
          rw [List.map_cons, List.lookup_cons, htu] at hl
          simpa using ih hl

/-- Two steps give a result only if the first one does, and the second one for what it gives. -/
theorem exists_of_bind_eq_ok {ε α β : Type} {x : Except ε α} {f : α → Except ε β} {b : β}
    (h : x >>= f = .ok b) : ∃ a, x = .ok a ∧ f a = .ok b := by
  cases x with
  | error e => contradiction
  | ok a => exact ⟨a, rfl, h⟩

/-- A channel that is built has the callbacks that it is built with, and the throttle that they need. -/
theorem handlers_throttle_of_build {o : Options} {c : Channel Float} (h : o.build = .ok c) :
    c.handlers = o.callbacks.map (fun t => (t, .callback)) ∧ o.throttle = .ok c.throttle := by
  obtain ⟨allowed, -, h⟩ := exists_of_bind_eq_ok h
  obtain ⟨throttle?, hthrottle, h⟩ := exists_of_bind_eq_ok h
  obtain rfl := Except.ok.inj h
  exact ⟨rfl, hthrottle⟩

/-- It has callbacks only. -/
theorem handler?_ne_runner_of_build {o : Options} {c : Channel Float} (h : o.build = .ok c)
    (t : MessageType) : c.handler? t ≠ some .runner := by
  rw [handler?, (handlers_throttle_of_build h).1]
  induction o.callbacks with
  | nil => simp
  | cons u rest ih =>
      rw [List.map_cons, List.lookup_cons]
      split
      · simp
      · exact ih

/-- A channel with a callback for sizes is built with a new throttle. -/
theorem throttle_eq_ok {o : Options} {throttle? : Option (Resize.Throttle Float Resize.Size)}
    (h : o.throttle = .ok throttle?) :
    (o.callbacks.contains .resize = false ∧ throttle? = none) ∨
      ∃ window, throttle? = some (.make window o.loop) := by
  rw [Options.throttle] at h
  split at h
  · rw [Resize.Throttle.ofMilliseconds] at h
    split at h
    · next heq =>
        split at heq
        · simp at heq
        · obtain rfl := Except.ok.inj h
          exact Or.inr ⟨_, congrArg some (Except.ok.inj heq).symm⟩
    · simp at h
  · next hnone =>
      obtain rfl := Except.ok.inj h
      exact Or.inl ⟨by simpa using hnone, rfl⟩

/-- A channel that is built has a throttle if it has a callback for sizes. -/
theorem equipped_build {o : Options} {c : Channel Float} (h : o.build = .ok c) : c.Equipped := by
  obtain ⟨hhandlers, hthrottle⟩ := handlers_throttle_of_build h
  intro hd
  rw [handler?, hhandlers] at hd
  have hcontains := contains_of_lookup_callbacks hd
  rcases throttle_eq_ok hthrottle with ⟨hnone, -⟩ | ⟨window, hmade⟩
  · rw [hcontains] at hnone
    contradiction
  · rw [hmade]
    rfl

namespace Session

variable [Resize.Clock τ]

/-- Every command keeps a channel equipped. -/
theorem equipped_step {s : Session τ} (hs : s.channel.Equipped) (c : Command τ) :
    (s.step c).channel.Equipped := by
  cases c with
  | message e react => exact (onlyThrottle_handle react s.now e s.channel).equipped hs
  | addOrigin origin =>
      rw [step, addOrigin]
      cases Origin.add s.channel.allowed origin <;> exact hs
  | register type h hother =>
      rw [step, register?]
      split
      · exact hs.register _ hother
      · exact hs
  | fire => exact (onlyThrottle_fire s.now s.channel).equipped hs
  | reset => exact (onlyThrottle_reset s.channel).equipped hs
  | runLoop b => exact (onlyThrottle_runLoop b s.channel).equipped hs
  | close => exact fun h => by simp [step, close, handler?] at h
  | _ => exact hs

/-- So does every run. -/
theorem equipped_after {s : Session τ} (hs : s.channel.Equipped) (cs : List (Command τ)) :
    (s.after cs).channel.Equipped := by
  induction cs generalizing s with
  | nil => exact hs
  | cons c rest ih => exact ih (equipped_step hs c)

end Session

end Channel

end SketchHost
