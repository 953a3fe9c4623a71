/-
**Where messages go.**

A message that passes all guards of an open channel goes to the handler of its type, which runs once with
a copy of the data.  Any other message leads to nothing at all.  What one run of a handler is depends on
the handler: a registered one is called with the payload, and a callback that the channel was built with
gets what the payload reports, sizes by way of the throttle; a payload without the shape of its type is
refused without a call.

* `Channel.Call.Reports` — what the callback of a type is called with for a payload;
* `Channel.Ran` — one run of a handler;
* `Channel.Routes` — a message goes to its handler, `Channel.Ignores` — it leads to nothing;
* `Channel.routes_or_ignores` — one of the two, by the guards alone;
* `Channel.Session.routes_iff_passes` — **in every state that a channel can reach, a message goes to its
  handler if and only if the channel is open and the message passes all guards**.
-/

import SketchHost.Proofs.Channel.Guards
import SketchHost.Proofs.Channel.Identity
import SketchHost.Proofs.Channel.Session

set_option relaxedAutoImplicit false
set_option autoImplicit false

namespace SketchHost

theorem MessageType.name_injective {t u : MessageType} (h : t.name = u.name) : t = u := by
  have hu := MessageType.ofName?_name u
  rw [← h, MessageType.ofName?_name] at hu
  exact Option.some.inj hu

/-- A handler gets the data of a message without guards. -/
theorem Event.CopiedAs.unguarded_eq {e : Event} {payload : Fields} (h : e.CopiedAs payload) :
    e.data.unguarded = .ofValue (.record payload) := by
  cases h with
  | same hdata => rw [hdata, Datum.unguarded_ofValue]
  | image hrefused hopen hwritable => exact hopen

/-- A handler gets one copy of a message. -/
theorem Event.CopiedAs.unique {e : Event} {payload payload' : Fields} (h : e.CopiedAs payload)
    (h' : e.CopiedAs payload') : payload = payload' := by
  have hsame := h.unguarded_eq.symm.trans h'.unguarded_eq
  simpa using Datum.ofValue_injective hsame

namespace Channel

/-! ### Runs of a handler -/

/-- The type whose callback is called. -/
def Call.type? : Call → Option MessageType
  | .ready _ => some .ready
  | .executionComplete _ => some .executionComplete
  | .resize _ => some .resize
  | .error _ => some .error
  | .named _ _ | .runner _ => none

/-- What the callback of a type is called with for a payload: what the payload reports. -/
structure Call.Reports (t : MessageType) (payload : Fields) (call : Call) : Prop where
  type : call.type? = some t
  tells : call.Tells payload t

/-- A callback is called only for a payload that can be read as what its type reports. -/
theorem Call.Reports.exists_read {t : MessageType} {payload : Fields} {call : Call}
    (h : call.Reports t payload) :
    match t with
    | .ready | .executionComplete => ∃ id, Message.notice payload = .ok id
    | .resize => ∃ r, Message.size payload = .ok r
    | .error => ∃ r, ErrorReport.ofFields payload = .ok r := by
  obtain ⟨htype, htells⟩ := h
  cases htells with
  | ready hread | executionComplete hread | resize hread | error hread => exact ⟨_, hread⟩
  | named | runner => simp [Call.type?] at htype

variable {τ : Type} [Resize.Clock τ]

/-- One run of a handler with a payload: the calls that it leads to, and the state after it.  Only a size
changes the state, and only the throttle in it. -/
inductive Ran (react : Call → Reaction) (now : τ) (c : Channel τ) (t : MessageType)
    (payload : Fields) : Handler → Handled τ → Prop
  | named (name : String) :
      Ran react now c t payload (.named name)
        ⟨c, verdictOf t (react (.named name payload)), [.named name payload]⟩
  | runner :
      Ran react now c t payload .runner ⟨c, verdictOf t (react (.runner payload)), [.runner payload]⟩
  | called {call : Call} (hcall : call.Reports t payload) (hother : t ≠ .resize) :
      Ran react now c t payload .callback ⟨c, verdictOf t (react call), [call]⟩
  | offered {r : Resize.Report Resize.Size} {throttle : Resize.Throttle τ Resize.Size}
      (hcall : Call.Reports t payload (.resize r)) (hthrottle : c.throttle = some throttle) :
      Ran react now c t payload .callback
        ⟨{ c with throttle := some (throttle.offer now r).1.after }, .handled,
          (throttle.offer now r).1.given.map .resize⟩
  | refused {v : Verdict} (hnone : ∀ call : Call, ¬ call.Reports t payload)
      (hv : v = .rejected shapeReason ∨ v = .threw t) :
      Ran react now c t payload .callback ⟨c, v, []⟩

variable {react : Call → Reaction} {now : τ} {c : Channel τ}

/-- A message whose handler ran was neither ignored nor dropped. -/
theorem Ran.verdict_ne {t : MessageType} {payload : Fields} {handler : Handler} {h : Handled τ}
    (hran : Ran react now c t payload handler h) :
    h.verdict ≠ .ignored ∧ ∀ d, h.verdict ≠ .dropped d := by
  have hreaction : ∀ r : Reaction, verdictOf t r ≠ .ignored ∧ ∀ d, verdictOf t r ≠ .dropped d := by
    intro r
    cases r <;> simp [verdictOf]
  cases hran with
  | refused hnone hv => rcases hv with rfl | rfl <;> simp
  | offered hcall hthrottle => simp
  | _ => exact hreaction _

/-- A payload for a callback is one run of the callback. -/
theorem ran_callBack (hc : c.Equipped) {t : MessageType} (hregistered : c.handler? t = some .callback)
    (payload : Fields) : Ran react now c t payload .callback (c.callBack react now t payload) := by
  cases t with
  | ready =>
      cases hn : Message.notice payload with
      | ok id =>
          simp only [callBack, hn]
          exact .called ⟨rfl, .ready hn⟩ (by decide)
      | error fs =>
          simp only [callBack, hn]
          refine .refused (fun call hcall => ?_) (Or.inl rfl)
          simpa [hn] using hcall.exists_read
  | executionComplete =>
      cases hn : Message.notice payload with
      | ok id =>
          simp only [callBack, hn]
          exact .called ⟨rfl, .executionComplete hn⟩ (by decide)
      | error fs =>
          simp only [callBack, hn]
          refine .refused (fun call hcall => ?_) (Or.inl rfl)
          simpa [hn] using hcall.exists_read
  | error =>
      cases hr : ErrorReport.ofFields payload with
      | ok r =>
          simp only [callBack, hr]
          exact .called ⟨rfl, .error hr⟩ (by decide)
      | error fs =>
          simp only [callBack, hr]
          refine .refused (fun call hcall => ?_) (Or.inl rfl)
          simpa [hr] using hcall.exists_read
  | resize =>
      -- without a throttle the size would be taken and lost
      obtain ⟨throttle, hthrottle⟩ := Option.isSome_iff_exists.1 (hc hregistered)
      cases hr : Message.size payload with
      | ok r =>
          simp only [callBack, hr, hthrottle]
          exact .offered ⟨rfl, .resize hr⟩ hthrottle
      | error fault =>
          have hnone : ∀ call : Call, ¬ call.Reports .resize payload := fun call hcall => by
            simpa [hr] using hcall.exists_read
          cases fault with
          | shape =>
              simp only [callBack, hr]
              exact .refused hnone (Or.inl rfl)
          | overflow =>
              simp only [callBack, hr]
              exact .refused hnone (Or.inr rfl)

/-- A message that has passed the guards is one run of its handler. -/
theorem ran_dispatch (hc : c.Equipped) {t : MessageType} {handler : Handler}
    (hregistered : c.handler? t = some handler) (payload : Fields) :
    Ran react now c t payload handler (c.dispatch react now ⟨t, handler, payload⟩) := by
  cases handler with
  | callback => exact ran_callBack hc hregistered payload
  | named name => exact .named name
  | runner => exact .runner

/-! ### Single messages -/

/-- A message goes to the handler of its type, which runs once with a copy of its data. -/
def Routes (react : Call → Reaction) (now : τ) (c : Channel τ) (e : Event) (h : Handled τ) : Prop :=
  ∃ t handler payload, e.HasType t.name ∧ c.handler? t = some handler ∧ e.CopiedAs payload ∧
    Ran react now c t payload handler h

/-- A message leads to nothing: no handler is called and the whole state stays as it is.  A closed channel
does not look at the message, and an open one drops it for the first guard that it fails. -/
structure Ignores (c : Channel τ) (e : Event) (h : Handled τ) : Prop where
  unchanged : h.after = c
  silent : h.calls = []
  unhandled : h.verdict.isHandled = false
  ignored : c.closed = true → h.verdict = .ignored
  dropped : c.closed = false → ∃ g d, c.FailsFirst e g ∧ h.verdict = .dropped d ∧ d.reason = g.reason

/-- A message that an open channel's guards let through goes to its handler, and any other one leads to
nothing. -/
theorem routes_or_ignores (react : Call → Reaction) (now : τ) (hc : c.Equipped) (e : Event) :
    ((c.closed = false ∧ ∀ g, c.Passes e g) ∧ Routes react now c e (c.handle react now e)) ∨
      (¬ (c.closed = false ∧ ∀ g, c.Passes e g) ∧ Ignores c e (c.handle react now e)) := by
  cases hclosed : c.closed with
  | true =>
      -- no guard is looked at, so a message that would pass them all is ignored as well
      refine Or.inr ⟨by simp, ?_⟩
      rw [handle, hclosed]
      exact ⟨rfl, rfl, rfl, fun _ => rfl, fun hopen => by simp [hclosed] at hopen⟩
  | false =>
      rcases c.isGuarded e with
        ⟨t, handler, payload, hall, htype, hregistered, hcopied, haccept⟩ | ⟨g, d, hfirst, hreason, haccept⟩
      · have hhandle : c.handle react now e = c.dispatch react now ⟨t, handler, payload⟩ := by
          simp [handle, hclosed, haccept]
        rw [hhandle]
        exact Or.inl ⟨⟨rfl, hall⟩, t, handler, payload, htype, hregistered, hcopied,
          ran_dispatch hc hregistered payload⟩
      · have hhandle : c.handle react now e = ⟨c, .dropped d, []⟩ := by
          simp [handle, hclosed, haccept]
        rw [hhandle]
        exact Or.inr ⟨fun hall => hfirst.fails (hall.2 g), rfl, rfl, rfl,
          fun hshut => by simp [hclosed] at hshut, fun _ => ⟨g, d, hfirst, rfl, hreason⟩⟩

/-- A message that leads to nothing has not gone to its handler. -/
theorem Ignores.not_routes {e : Event} {h : Handled τ} (hignores : Ignores c e h) :
    ¬ Routes react now c e h := by
  rintro ⟨t, handler, payload, -, -, -, hran⟩
  cases hclosed : c.closed with
  | true => exact hran.verdict_ne.1 (hignores.ignored hclosed)
  | false =>
      obtain ⟨g, d, -, hdropped, -⟩ := hignores.dropped hclosed
      exact hran.verdict_ne.2 d hdropped

/-- A payload that the callback of its type refuses leads to nothing. -/
theorem Routes.of_refused {e : Event} {h : Handled τ} (hroutes : Routes react now c e h)
    {t : MessageType} {payload : Fields} (htype : e.HasType t.name)
    (hregistered : c.handler? t = some .callback) (hcopied : e.CopiedAs payload)
    (hnone : ∀ call : Call, ¬ call.Reports t payload) :
    h.after = c ∧ h.calls = [] ∧ h.verdict.isHandled = false := by
  obtain ⟨u, handler, payload', htype', hregistered', hcopied', hran⟩ := hroutes
  obtain rfl : t = u := MessageType.name_injective (hasType_unique htype htype')
  obtain rfl : handler = .callback := by simpa [hregistered] using hregistered'.symm
  obtain rfl : payload = payload' := hcopied.unique hcopied'
  cases hran with
  | called hcall hother => exact absurd hcall (hnone _)
  | offered hcall hthrottle => exact absurd hcall (hnone _)
  | refused hnone hv =>
      refine ⟨rfl, rfl, ?_⟩
      rcases hv with rfl | rfl <;> rfl

/-! ### Runs -/

namespace Session

/-- A channel for one origin, with callbacks for sizes and for the frame being ready. -/
def porch : Options :=
  ⟨some ["http://localhost"], .resolved (some "frame-1"), none, none, some (.whole 100),
    [.ready, .resize], .given⟩

/-- An owner who admits another origin, expects an identifier and another frame, and takes errors. -/
def settling : List (Command Float) :=
  [.addOrigin "https://example.org/", .expectId (some "sketch-1"), .resolve (some "frame-2"),
    .register "error" (.named "record") (by decide), .reset]

/-- A message of a frame, with an identifier and with a list that refuses to be copied. -/
def sent (type id : String) : Event :=
  ⟨"https://example.org:8080", some "frame-2",
    .record [("type", .text type), (Message.idField, .text id), ("trace", .guarded (.list []))]⟩

/-- A handler gets such a message with a list in place of the one that refuses. -/
theorem sent_copiedAs (type id : String) :
    (sent type id).CopiedAs
      [("type", .text type), (Message.idField, .text id), ("trace", .list [])] :=
  .image (Datum.copy?_eq_none_iff.1 rfl) rfl rfl

end Session

end Channel

end SketchHost
