/-
**A failing handler does not disturb a channel.**

The step-by-step programs of a channel are followed along whatever user code does.  Each of them comes
to its end, in the state and with the calls that the definition of the channel says, and changes no
object but the copies that it made itself.  So two channels that differ only in their user code are in
the same state after every step, and have made the same calls.

* `Channel.Yields` — a program comes to a result, a state and calls, and leaves the senders' objects;
* `Channel.yields_submit`, `Channel.yields_fire`, `Channel.yields_receive` — **the programs agree with
  the throttle and with the channel**;
* `Channel.Deed`, `Channel.Scene.play` — what can happen to a channel, and several of such deeds;
* `Channel.Scene.play_alike` — **the states and the calls are the same for all user code**.
-/

import SketchHost.Proofs.Channel.Routing
import SketchHost.Proofs.Channel.UserCode

set_option relaxedAutoImplicit false
set_option autoImplicit false

namespace SketchHost

namespace Channel

open Operation

variable {τ : Type}

/-! ### Programs that come to an end -/

/-- A program comes to a result, with the channel in a state and some calls more, and the memory still
begins with the objects of the senders. -/
def Yields {β : Type} (objects : List Datum) (op : Operation τ β) (s : Scene τ)
    (result : Except Raised β) (c : Channel τ) (added : List Call) : Prop :=
  ∃ memory, objects <+: memory ∧ outcome op s = (result, ⟨s.now, c, memory, s.calls ++ added⟩)

section Yields

variable {β γ : Type} {objects : List Datum} {s : Scene τ} {c d : Channel τ} {calls more : List Call}

theorem yields_ofResult (hs : objects <+: s.memory) (result : Except Raised β) :
    Yields objects (ofResult result) s result s.channel [] :=
  ⟨s.memory, hs, by simp⟩

theorem yields_pure (hs : objects <+: s.memory) (b : β) :
    Yields objects (pure b) s (.ok b) s.channel [] :=
  ⟨s.memory, hs, by simp⟩

theorem yields_copyOf (hs : objects <+: s.memory) (payload : Fields) :
    Yields objects (copyOf payload) s (.ok s.memory.length) s.channel [] :=
  ⟨s.memory ++ [.ofValue (.record payload)], hs.trans (List.prefix_append _ _), by
    simp [copyOf, Except.map]⟩

theorem yields_putThrottle (hs : objects <+: s.memory) (t : Resize.Throttle τ Resize.Size) :
    Yields objects (putThrottle t) s (.ok ()) (s.channel.withThrottle t) [] :=
  ⟨s.memory, hs, by simp [putThrottle]⟩

/-- A program that looks at the scene first. -/
theorem yields_get {f : Scene τ → Operation τ β} {result : Except Raised β}
    (h : Yields objects (f s) s result c calls) :
    Yields objects (get >>= f) s result c calls := by
  obtain ⟨memory, hmemory, hf⟩ := h
  exact ⟨memory, hmemory, by simpa using hf⟩

/-- One program after another one.  What the second one does must not depend on what has become of the
copies. -/
theorem Yields.bind {op : Operation τ β} {b : β} {f : β → Operation τ γ} {result : Except Raised γ}
    (hop : Yields objects op s (.ok b) c calls)
    (hf : ∀ memory, objects <+: memory →
      Yields objects (f b) ⟨s.now, c, memory, s.calls ++ calls⟩ result d more) :
    Yields objects (op >>= f) s result d (calls ++ more) := by
  obtain ⟨memory, hmemory, hop⟩ := hop
  obtain ⟨left, hleft, hf⟩ := hf memory hmemory
  exact ⟨left, hleft, by simp [hop, hf]⟩

/-- A first program that calls nothing. -/
theorem Yields.bind_quiet {op : Operation τ β} {b : β} {f : β → Operation τ γ}
    {result : Except Raised γ} (hop : Yields objects op s (.ok b) c [])
    (hf : ∀ memory, objects <+: memory →
      Yields objects (f b) ⟨s.now, c, memory, s.calls⟩ result d more) :
    Yields objects (op >>= f) s result d more :=
  hop.bind fun memory hmemory => by simpa using hf memory hmemory

/-- A program whose result is only made into another one. -/
theorem Yields.map {op : Operation τ β} {result : Except Raised β} (f : β → γ)
    (hop : Yields objects op s result c calls) :
    Yields objects (op >>= fun b => pure (f b)) s (result.map f) c calls := by
  obtain ⟨memory, hmemory, hop⟩ := hop
  exact ⟨memory, hmemory, by simp [hop]⟩

/-- What is raised breaks off the rest. -/
theorem Yields.bind_error {op : Operation τ β} {raised : Raised} (f : β → Operation τ γ)
    (hop : Yields objects op s (.error raised) c calls) :
    Yields objects (op >>= f) s (.error raised) c calls := by
  obtain ⟨memory, hmemory, hop⟩ := hop
  exact ⟨memory, hmemory, by simp [hop]⟩

/-- What is raised is caught where it is turned into a result. -/
theorem Yields.caught {op : Operation τ β} {result : Except Raised β} (instead : Raised → β)
    (hop : Yields objects op s result c calls) :
    Yields objects (tryCatch op fun raised => pure (instead raised)) s
      (.ok (match result with
        | .ok b => b
        | .error raised => instead raised)) c calls := by
  obtain ⟨memory, hmemory, hop⟩ := hop
  refine ⟨memory, hmemory, ?_⟩
  cases result <;> simp [hop]

/-- User code may write to the copy that it was given, which is none of the objects. -/
theorem yields_call (u : UserCode) {own? : Option Nat} (hs : objects <+: s.memory)
    (hown : ∀ place ∈ own?, objects.length ≤ place) (call : Call) :
    Yields objects (Operation.call u own? call) s (resultOf (u s.calls call).reaction) s.channel
      [call] := by
  cases own? with
  | none => exact ⟨s.memory, hs, by simp [Operation.call]⟩
  | some place =>
      obtain ⟨copies, hcopies⟩ := hs
      have hplace : objects.length ≤ place := hown place rfl
      refine ⟨_, ?_, by simp [Operation.call]; rfl⟩
      rw [← hcopies, List.set_append_right _ _ hplace]
      exact List.prefix_append _ _

end Yields

/-! ### Sizes -/

section Sizes

variable {objects : List Datum} {s : Scene τ} {own? : Option Nat}

/-- A report is given out before the callback can raise anything. -/
theorem yields_deliver (u : UserCode) (hs : objects <+: s.memory)
    (hown : ∀ place ∈ own?, objects.length ≤ place) (t : Resize.Throttle τ Resize.Size)
    (r : Resize.Report Resize.Size) :
    Yields objects (deliver u own? t r) s (.ok ()) (s.channel.withThrottle (t.giveOut s.now r).after)
      [.resize r] := by
  refine yields_get ((yields_putThrottle hs _).bind_quiet fun memory hmemory => ?_)
  exact (yields_call u hmemory hown _).caught fun _ => ()

/-- Offering a report, step by step. -/
theorem yields_submit [Resize.Clock τ] (u : UserCode) (hs : objects <+: s.memory)
    (hown : ∀ place ∈ own?, objects.length ≤ place) (t : Resize.Throttle τ Resize.Size)
    (r : Resize.Report Resize.Size) :
    Yields objects (submit u own? t r) s (.ok (t.offer s.now r).2)
      (s.channel.withThrottle (t.offer s.now r).1.after)
      ((t.offer s.now r).1.given.map .resize) := by
  refine yields_get ?_
  simp only [Resize.Throttle.offer]
  split
  · -- a size that is known already
    exact (yields_putThrottle hs _).bind_quiet fun memory hmemory => yields_pure hmemory _
  · split
    · -- a report that is given out at once
      refine (yields_putThrottle hs _).bind_quiet fun memory hmemory => ?_
      refine (yields_deliver u hmemory hown _ r).bind fun later hlater => ?_
      exact yields_pure hlater true
    · -- a report that is held
      exact (yields_putThrottle hs _).bind_quiet fun memory hmemory => yields_pure hmemory _

/-- A timer, step by step.  It is taken off before its callback can raise anything. -/
theorem yields_runTimer (u : UserCode) (hs : objects <+: s.memory)
    {t : Resize.Throttle τ Resize.Size} (ht : s.channel.throttle = some t) (handle : Nat) :
    Yields objects (runTimer u handle) s (.ok ())
      (s.channel.withThrottle (t.runTimer s.now handle).after)
      ((t.runTimer s.now handle).given.map .resize) := by
  refine yields_get ?_
  simp only [ht, Resize.Throttle.runTimer]
  split
  · refine (yields_putThrottle hs _).bind_quiet fun memory hmemory => ?_
    cases hheld : t.held with
    | none => simpa [Resize.Throttle.release, hheld] using yields_pure hmemory ()
    | some r =>
        have hown : ∀ place ∈ (none : Option Nat), objects.length ≤ place := by simp
        simp only [Resize.Throttle.release]
        exact yields_deliver u hmemory hown _ r
  · rw [withThrottle_self ht]
    exact yields_pure hs ()

/-- Timers one after the other. -/
theorem yields_runTimers (u : UserCode) (handles : List Nat) (hs : objects <+: s.memory)
    {t : Resize.Throttle τ Resize.Size} (ht : s.channel.throttle = some t) :
    Yields objects (runTimers u handles) s (.ok ())
      (s.channel.withThrottle (t.runTimers s.now handles).after)
      ((t.runTimers s.now handles).given.map .resize) := by
  induction handles generalizing s t with
  | nil =>
      rw [Resize.Throttle.runTimers, withThrottle_self ht]
      exact yields_pure hs ()
  | cons handle rest ih =>
      have first := yields_runTimer u hs ht handle
      simp only [Resize.Throttle.runTimers, List.map_append]
      exact first.bind fun memory hmemory => ih hmemory rfl

/-- All timers of a channel, step by step. -/
theorem yields_fire (u : UserCode) (hs : objects <+: s.memory) :
    Yields objects (Operation.fire u) s (.ok (s.channel.fire s.now).2.1) (s.channel.fire s.now).1
      (s.channel.fire s.now).2.2 := by
  refine yields_get ?_
  simp only [Channel.fire]
  cases ht : s.channel.throttle with
  | none => exact yields_pure hs 0
  | some t =>
      have timers := yields_runTimers u (t.liveTimers.map Resize.Timer.handle) hs ht
      exact timers.map fun _ => t.liveTimers.length

end Sizes

/-! ### Messages -/

section Messages

variable {objects : List Datum} {s : Scene τ} {own? : Option Nat}

/-- How user code comes back at some point, as the channel's own definition takes it. -/
def UserCode.reactions (u : UserCode) (before : List Call) (call : Call) : Reaction :=
  (u before call).reaction

/-- The verdict on a message whose handler has come to a result. -/
def verdictOn (type : MessageType) : Except Raised Unit → Verdict
  | .ok () => .handled
  | .error raised => verdictFor type raised

@[simp] theorem verdictOn_resultOf (type : MessageType) (r : Reaction) :
    verdictOn type (resultOf r) = verdictOf type r := by
  cases r <;> rfl

/-- A program for a message that has passed the guards does what the channel's own definition says. -/
def Agrees (objects : List Datum) (type : MessageType) (op : Operation τ Unit) (s : Scene τ)
    (h : Handled τ) : Prop :=
  ∃ result, Yields objects op s result h.after h.calls ∧ verdictOn type result = h.verdict

theorem agrees_call (u : UserCode) (hs : objects <+: s.memory)
    (hown : ∀ place ∈ own?, objects.length ≤ place) (type : MessageType) (call : Call) :
    Agrees objects type (Operation.call u own? call) s
      (s.channel.callOnce (u.reactions s.calls) type call) :=
  ⟨_, yields_call u hs hown call, verdictOn_resultOf type _⟩

/-- A payload of another shape is rejected before any user code runs. -/
theorem agrees_misshapen {ε β : Type} (hs : objects <+: s.memory) (type : MessageType) (e : ε)
    (f : β → Operation τ Unit) :
    Agrees objects type (misshapen (.error e : Except ε β) >>= f) s
      ⟨s.channel, .rejected shapeReason, []⟩ :=
  ⟨_, (yields_ofResult hs _).bind_error f, rfl⟩

theorem agrees_shapely {ε β : Type} {type : MessageType} {b : β} {f : β → Operation τ Unit}
    {h : Handled τ} (hf : Agrees objects type (f b) s h) :
    Agrees objects type (misshapen (.ok b : Except ε β) >>= f) s h := by
  obtain ⟨result, ⟨memory, hmemory, hout⟩, hverdict⟩ := hf
  refine ⟨result, ⟨memory, hmemory, ?_⟩, hverdict⟩
  simpa [misshapen, Except.mapError] using hout

variable [Resize.Clock τ]

/-- The callbacks, step by step. -/
theorem agrees_callBack (u : UserCode) (hs : objects <+: s.memory)
    (hown : ∀ place ∈ own?, objects.length ≤ place) (type : MessageType) (payload : Fields) :
    Agrees objects type (Operation.callBack u own? type payload) s
      (s.channel.callBack (u.reactions s.calls) s.now type payload) := by
  cases type with
  | ready =>
      simp only [Channel.callBack, Operation.callBack]
      cases Message.notice payload with
      | error e => exact agrees_misshapen hs _ e _
      | ok id => exact agrees_shapely (agrees_call u hs hown _ _)
  | executionComplete =>
      simp only [Channel.callBack, Operation.callBack]
      cases Message.notice payload with
      | error e => exact agrees_misshapen hs _ e _
      | ok id => exact agrees_shapely (agrees_call u hs hown _ _)
  | error =>
      simp only [Channel.callBack, Operation.callBack]
      cases ErrorReport.ofFields payload with
      | error e => exact agrees_misshapen hs _ e _
      | ok report => exact agrees_shapely (agrees_call u hs hown _ _)
  | resize =>
      simp only [Channel.callBack, Operation.callBack]
      cases Message.size payload with
      | error fault =>
          cases fault with
          | overflow => exact ⟨.error .fault, yields_ofResult hs _, rfl⟩
          | shape => exact ⟨.error (.rejection shapeReason), yields_ofResult hs _, rfl⟩
      | ok r =>
          refine ⟨.ok (), yields_get ?_, ?_⟩
          · cases ht : s.channel.throttle with
            | none => exact yields_pure hs ()
            | some t =>
                exact (yields_submit u hs hown t r).map fun _ => ()
          · cases s.channel.throttle <;> rfl

/-- A message that has passed the guards, step by step. -/
theorem agrees_handler (u : UserCode) (hs : objects <+: s.memory)
    (hown : ∀ place ∈ own?, objects.length ≤ place) (a : Accepted) :
    Agrees objects a.type (handler u own? a) s
      (s.channel.dispatch (u.reactions s.calls) s.now a) := by
  rw [handler, dispatch]
  cases a.handler with
  | named name => exact agrees_call u hs hown _ _
  | runner => exact agrees_call u hs hown _ _
  | callback => exact agrees_callBack u hs hown _ _

/-- A message, step by step.  Nothing that a handler raises gets out of it. -/
theorem yields_receive (u : UserCode) (hs : objects <+: s.memory) (m : Letter) :
    let h := s.channel.handle (u.reactions s.calls) s.now (m.event s.memory)
    Yields objects (receive u m) s (.ok h.verdict) h.after h.calls := by
  intro h
  refine yields_get ?_
  subst h
  rw [Channel.handle]
  cases s.channel.closed with
  | true => exact yields_pure hs _
  | false =>
      simp only [Bool.false_eq_true, if_false]
      cases s.channel.accept (m.event s.memory) with
      | error d => exact yields_pure hs _
      | ok a =>
          refine (yields_copyOf hs a.payload).bind_quiet fun memory hmemory => ?_
          -- the copy lies beyond the objects, and it is all that the handler gets
          have hown : ∀ place ∈ some s.memory.length, objects.length ≤ place := by
            simpa using hs.length_le
          obtain ⟨result, hhandler, hverdict⟩ :=
            agrees_handler (s := ⟨s.now, s.channel, memory, s.calls⟩) u hmemory hown a
          have caught := (hhandler.map fun _ => Verdict.handled).caught (verdictFor a.type)
          rw [← hverdict]
          cases result <;> exact caught

/-- How a handler comes back tells on the verdict alone. -/
theorem handle_reactions (react other : Call → Reaction) (now : τ) (e : Event) (c : Channel τ) :
    (c.handle react now e).after = (c.handle other now e).after ∧
      (c.handle react now e).calls = (c.handle other now e).calls := by
  rw [handle, handle]
  split
  · exact ⟨rfl, rfl⟩
  · split
    · exact ⟨rfl, rfl⟩
    · next a ha =>
        rw [dispatch, dispatch]
        split
        · exact ⟨rfl, rfl⟩
        · exact ⟨rfl, rfl⟩
        · cases a.type with
          | resize => exact ⟨rfl, rfl⟩
          | _ =>
              simp only [Channel.callBack]
              split <;> exact ⟨rfl, rfl⟩

end Messages

/-! ### Deeds -/

/-- Whether a command may run user code: messages and timers do. -/
def Command.runsUserCode : Command τ → Bool
  | .message _ _ => true
  | .fire => true
  | _ => false

/-- What can happen to a channel in a scene: a message comes in, timers run, or its owner gives a command
that runs no user code. -/
inductive Deed (τ : Type) where
  | message (m : Letter)
  | fire
  | command (c : Command τ) (quiet : c.runsUserCode = false)

/-- A deed that refers to none but given objects. -/
def Deed.RefersTo (objects : List Datum) : Deed τ → Prop
  | .message m => m.place < objects.length
  | _ => True

/-- A deed as a command, with user code that comes back without a fault. -/
def Deed.asCommand (objects : List Datum) : Deed τ → Command τ
  | .message m => .message (m.event objects) fun _ => .done
  | .fire => .fire
  | .command c _ => c

/-- What is seen of a channel: its state, its clock, and the calls so far. -/
structure View (τ : Type) where
  session : Session τ
  calls : List Call

/-- What is seen of a scene. -/
def Scene.view (s : Scene τ) : View τ :=
  ⟨⟨s.now, s.channel⟩, s.calls⟩

section Deeds

variable [Resize.Clock τ]

/-- A deed, step by step.  A message comes to a verdict. -/
def Operation.perform (u : UserCode) : Deed τ → Operation τ (Option Verdict)
  | .message m => do
      let verdict ← receive u m
      pure (some verdict)
  | .fire => do
      let _ ← Operation.fire u
      pure none
  | .command c _ => do
      let s ← get
      let next := (⟨s.now, s.channel⟩ : Session τ).step c
      set ({ s with now := next.now, channel := next.channel } : Scene τ)
      pure none

/-- What each of several deeds comes to, and the scene that it leaves, from which the next one goes on. -/
def Scene.play (u : UserCode) (s : Scene τ) :
    List (Deed τ) → List (Except Raised (Option Verdict) × Scene τ)
  | [] => []
  | d :: rest =>
      let next := outcome (perform u d) s
      next :: play u next.2 rest

/-- What is seen after a command. -/
def View.next (w : View τ) (c : Command τ) : View τ :=
  ⟨w.session.step c, w.calls ++ (w.session.trace c).calls⟩

/-- What is seen after each of several commands. -/
def View.course (w : View τ) : List (Command τ) → List (View τ)
  | [] => []
  | c :: rest => w.next c :: course (w.next c) rest

/-- A letter that refers to an object is the same message, whatever else is in memory. -/
theorem Letter.event_of_prefix {objects memory : List Datum} (h : objects <+: memory) {m : Letter}
    (hm : m.place < objects.length) : m.event memory = m.event objects := by
  obtain ⟨copies, rfl⟩ := h
  rw [Letter.event, Letter.event, List.getElem?_append_left hm]

/-- **A deed is not broken off.**  It comes to its end, the channel and the calls are as if user code
had come back without a fault, and the objects of the senders are as they were. -/
theorem perform_undisturbed (u : UserCode) {objects : List Datum} {s : Scene τ}
    (hs : objects <+: s.memory) {d : Deed τ} (hd : d.RefersTo objects) :
    let next := outcome (perform u d) s
    (∃ verdict?, next.1 = .ok verdict?) ∧ objects <+: next.2.memory ∧
      next.2.view = s.view.next (d.asCommand objects) := by
  cases d with
  | message m =>
      obtain ⟨memory, hmemory, hout⟩ := (yields_receive u hs m).map some
      rw [m.event_of_prefix hs hd] at hout
      obtain ⟨hafter, hcalls⟩ :=
        handle_reactions (u.reactions s.calls) (fun _ => .done) s.now (m.event objects) s.channel
      rw [perform, hout]
      refine ⟨⟨_, rfl⟩, hmemory, ?_⟩
      simp only [Scene.view, View.next, Deed.asCommand, Session.step, Session.trace, hafter, hcalls]
  | fire =>
      obtain ⟨memory, hmemory, hout⟩ := (yields_fire u hs).map fun _ => (none : Option Verdict)
      rw [perform, hout]
      exact ⟨⟨_, rfl⟩, hmemory, rfl⟩
  | command c hquiet =>
      refine ⟨⟨none, rfl⟩, hs, ?_⟩
      have hsilent : ((⟨s.now, s.channel⟩ : Session τ).trace c).calls = [] := by
        cases c <;> first | rfl | simp [Command.runsUserCode] at hquiet
      simp [perform, Scene.view, View.next, Deed.asCommand, hsilent]

/-- Several deeds, one after the other. -/
theorem play_undisturbed (u : UserCode) {objects : List Datum} {s : Scene τ}
    (hs : objects <+: s.memory) {ds : List (Deed τ)} (hds : ∀ d ∈ ds, d.RefersTo objects) :
    (∀ r ∈ s.play u ds, (∃ verdict?, r.1 = .ok verdict?) ∧ objects <+: r.2.memory) ∧
      (s.play u ds).map (fun r => r.2.view) =
        s.view.course (ds.map (Deed.asCommand objects)) := by
  induction ds generalizing s with
  | nil => exact ⟨by simp [Scene.play], rfl⟩
  | cons d rest ih =>
      obtain ⟨hresult, hmemory, hview⟩ := perform_undisturbed u hs (hds d List.mem_cons_self)
      obtain ⟨hrest, hviews⟩ := ih hmemory fun e he => hds e (List.mem_cons_of_mem d he)
      constructor
      · intro r hr
        rcases List.mem_cons.1 hr with rfl | hr
        · exact ⟨hresult, hmemory⟩
        · exact hrest r hr
      · simp only [Scene.play, List.map_cons, View.course, hviews, hview]

namespace Scene

/-- **A failing handler does not disturb a channel.**  The same deeds are done to the same channel, once
with one user code and once with another one: handlers, callbacks and timers come back, raise a fault,
reject the message, or write what they like to the copy that they were given, at any call.  After every
deed the state of the channel, with its throttle and timers, the clock, and the calls with all that they
were given are the same.  They are those of the channel's own definition, in a course in which no user
code fails.  No deed is broken off by what user code raises, and the data that messages refer to stay as
they were. -/
theorem play_alike (u v : UserCode) (s : Scene τ) (ds : List (Deed τ))
    (hds : ∀ d ∈ ds, d.RefersTo s.memory) :
    (s.play u ds).map (fun r => r.2.view) = (s.play v ds).map (fun r => r.2.view) ∧
    (s.play u ds).map (fun r => r.2.view) = s.view.course (ds.map (Deed.asCommand s.memory)) ∧
    ∀ r ∈ s.play u ds, (∃ verdict?, r.1 = .ok verdict?) ∧ s.memory <+: r.2.memory := by
  obtain ⟨hends, hviews⟩ := play_undisturbed u List.prefix_rfl hds
  obtain ⟨-, hothers⟩ := play_undisturbed v List.prefix_rfl hds
  exact ⟨hviews.trans hothers.symm, hviews, hends⟩

end Scene

end Deeds

/-! ### A visit to the porch -/

/-- User code that leaves its copy alone and comes back without a fault. -/
def obliging : UserCode
  | _, .named _ payload => ⟨payload, .done⟩
  | _, _ => ⟨[], .done⟩

/-- User code that empties its copy, rejects what it can reject, and raises a fault on every size. -/
def spiteful : UserCode
  | _, .named _ _ => ⟨[], .rejected "no"⟩
  | _, _ => ⟨[], .raised⟩

/-- What the frame of the porch has to say. -/
def sayings : List Datum :=
  [.record [("type", .text "ready"), ("notes", .guarded (.list [.text "first"]))],
    .record [("type", .text "resize"), ("width", .int 300), ("height", .int 200)],
    .record [("type", .text "resize"), ("width", .int 320), ("height", .int 200)]]

/-- A letter of the frame of the porch. -/
def saying (place : Nat) : Letter :=
  ⟨"http://localhost", some "frame-1", place⟩

/-- The frame says twice that it is ready, with two sizes in between, one of which waits for a timer. -/
def visit : List (Deed Float) :=
  [.command (.register "ready" (.named "record") (named_ne_callback "record")) rfl,
    .message (saying 0), .message (saying 1), .command (.setClock 0.01) rfl, .message (saying 2),
    .message (saying 0), .command (.setClock 0.5) rfl, .fire]

/-- Whether each message was handled. -/
def handledOf (outcomes : List (Except Raised (Option Verdict) × Scene Float)) : List (Option Bool) :=
  outcomes.map fun r => r.1.toOption.join.map Verdict.isHandled

/-- Both sorts of user code meet the same states and get the same calls, although what the one leaves of
its copies and how it comes back is seen in the verdicts. -/
theorem Scene.play_alike_visit :
    ∃ c₀, Session.porch.build = .ok c₀ ∧
      let s : Scene Float := ⟨0, c₀, sayings, []⟩
      (∀ d ∈ visit, d.RefersTo s.memory) ∧
      (s.play spiteful visit).map (fun r => r.2.view) =
        (s.play obliging visit).map (fun r => r.2.view) ∧
      (∀ r ∈ s.play spiteful visit, (∃ verdict?, r.1 = .ok verdict?) ∧ sayings <+: r.2.memory) ∧
      handledOf (s.play spiteful visit) =
        [none, some false, some true, none, some true, some false, none, none] ∧
      handledOf (s.play obliging visit) =
        [none, some true, some true, none, some true, some true, none, none] := by
  have hplaces : ∀ d ∈ visit, d.RefersTo sayings := by
    simp [visit, saying, sayings, Deed.RefersTo]
  refine ⟨_, rfl, hplaces, ?_, ?_, by decide +kernel, by decide +kernel⟩
  · exact (Scene.play_alike spiteful obliging ⟨0, _, sayings, []⟩ visit hplaces).1
  · exact (Scene.play_alike spiteful obliging ⟨0, _, sayings, []⟩ visit hplaces).2.2

end Channel

end SketchHost
