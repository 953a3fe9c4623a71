/-
**The identity guard of a channel.**

A channel that expects an identifier takes only messages that carry it.  What its handlers are called
with for such a message is what the message says, so it carries the identifier as well; a report of a
size may be held back, and what is held then comes from a message that was taken.

* `Message.idOf` — the identifier that a payload carries;
* `Event.CopiedAs.idOf_eq` — it is that of the message, whether this was copied or went through JSON;
* `Channel.Call.Tells` — a call of a handler tells what a payload says, its identifier included;
* `Channel.handle_cases` — **a message leads to nothing unless it carries the expected identifier**;
* `Channel.fire_spec` — timers give out what was held back.
-/

import SketchHost.Channel.Handle
import SketchHost.Proofs.Channel.Guards
import SketchHost.Proofs.Resize.Provenance

set_option relaxedAutoImplicit false
set_option autoImplicit false

namespace SketchHost

/-! ### Payloads -/

namespace Message

/-- The identifier that a payload carries: a text that is not empty. -/
def idOf (payload : Fields) : Option String :=
  Channel.sentId (.ofValue (.record payload))

end Message

/-- A payload carries the identifier of its message. -/
theorem Event.CopiedAs.idOf_eq {e : Event} {payload : Fields} (h : e.CopiedAs payload) :
    Message.idOf payload = Channel.sentId e.data := by
  rw [Message.idOf]
  cases h with
  | same hdata => rw [hdata]
  | image hrefused hopen hwritable =>
      rw [← hopen, Channel.sentId, Channel.sentId, Datum.textAt?_unguarded]

namespace Message

/-- A payload with an identifier that is a text is read with this identifier. -/
theorem identity_of_idOf {payload : Fields} {id : String} (h : idOf payload = some id) :
    identity payload = .ok (some id) := by
  obtain ⟨htext, -⟩ := Option.filter_eq_some_iff.1 h
  rw [Datum.textAt?_ofFields, Option.bind_eq_some_iff] at htext
  obtain ⟨v, hfind, hv⟩ := htext
  cases v with
  | text s =>
      obtain rfl := Option.some.inj hv
      simp [identity, optionalField, hfind, Value.orNull, Value.asText, Except.map, Except.mapError]
  | _ => simp [Value.text?] at hv

/-- What a notice says of its identifier is what the payload carries. -/
theorem notice_of_idOf {payload : Fields} {id : String} {read : Option String}
    (h : idOf payload = some id) (hr : notice payload = .ok read) : read = some id := by
  rw [notice, identity_of_idOf h] at hr
  split at hr
  · next heq =>
      have := Except.ok.inj heq
      rw [← Except.ok.inj hr, ← this]
  · simp at hr

/-- The identifier in the report of a size is what the payload carries. -/
theorem id_of_size {payload : Fields} {id : String} {r : Resize.Report Resize.Size}
    (h : idOf payload = some id) (hr : size payload = .ok r) : r.id = some id := by
  rw [size] at hr
  split at hr
  · simp at hr
  · split at hr
    · next hn _ _ =>
        rw [← Except.ok.inj hr]
        exact notice_of_idOf h hn
    · simp at hr

end Message

/-- The identifier in the report of an error is what the payload carries. -/
theorem ErrorReport.id_of_ofFields {payload : Fields} {id : String} {r : ErrorReport}
    (h : Message.idOf payload = some id) (hr : ErrorReport.ofFields payload = .ok r) :
    r.id = some id := by
  simp only [ErrorReport.ofFields, Message.identity_of_idOf h] at hr
  split at hr
  · next heq _ _ _ =>
      rw [← Except.ok.inj hr, ← Except.ok.inj heq]
  · simp at hr

namespace Channel

/-! ### Calls -/

/-- The identifier that a handler is called with. -/
def Call.id? : Call → Option String
  | .ready id => id
  | .executionComplete id => id
  | .resize r => r.id
  | .error r => r.id
  | .named _ payload => Message.idOf payload
  | .runner payload => Message.idOf payload

/-- A call of a handler tells what a payload of a type tells: the callback of the type gets what the
payload reports, and any other handler the payload itself. -/
inductive Call.Tells (payload : Fields) : MessageType → Call → Prop
  | ready {id : Option String} (h : Message.notice payload = .ok id) :
      Tells payload .ready (.ready id)
  | executionComplete {id : Option String} (h : Message.notice payload = .ok id) :
      Tells payload .executionComplete (.executionComplete id)
  | resize {r : Resize.Report Resize.Size} (h : Message.size payload = .ok r) :
      Tells payload .resize (.resize r)
  | error {r : ErrorReport} (h : ErrorReport.ofFields payload = .ok r) :
      Tells payload .error (.error r)
  | named (type : MessageType) (name : String) : Tells payload type (.named name payload)
  | runner (type : MessageType) : Tells payload type (.runner payload)

/-- A call that tells what a payload tells has its identifier. -/
theorem Call.Tells.id?_eq {payload : Fields} {type : MessageType} {call : Call} {id : String}
    (h : call.Tells payload type) (hid : Message.idOf payload = some id) : call.id? = some id := by
  cases h with
  | ready h => exact Message.notice_of_idOf hid h
  | executionComplete h => exact Message.notice_of_idOf hid h
  | resize h => exact Message.id_of_size hid h
  | error h => exact ErrorReport.id_of_ofFields hid h
  | named type name => exact hid
  | runner type => exact hid

/-- The handler of the runner is called with the payload itself. -/
theorem Call.Tells.payload_eq {payload told : Fields} {type : MessageType}
    (h : Call.Tells payload type (.runner told)) : told = payload := by
  cases h
  rfl

variable {τ : Type}

/-- The report of a size that is held back. -/
def held? (c : Channel τ) : Option (Resize.Report Resize.Size) :=
  c.throttle.bind Resize.Throttle.held

@[simp] theorem held?_reset (c : Channel τ) : c.reset.held? = none := by
  cases h : c.throttle <;> simp [held?, reset, h]

@[simp] theorem held?_close (c : Channel τ) : c.close.held? = none := by
  cases h : c.throttle <;> simp [held?, close, h]

@[simp] theorem held?_runLoop (b : Bool) (c : Channel τ) : (c.runLoop b).held? = c.held? := by
  cases h : c.throttle <;> simp [held?, runLoop, h, Resize.Throttle.runLoop]

@[simp] theorem held?_expectId (id : Option String) (c : Channel τ) :
    (c.expectId id).held? = c.held? := rfl

/-! ### Timers -/

/-- The timers give out what is held back, or nothing; they leave nothing else there. -/
theorem fire_spec (now : τ) (c : Channel τ) :
    (∀ call ∈ (c.fire now).2.2, ∃ q ∈ c.held?, call = .resize q)
      ∧ ∀ q ∈ (c.fire now).1.held?, q ∈ c.held? := by
  cases ht : c.throttle with
  | none => simp [fire, ht, held?]
  | some t =>
      refine ⟨fun call hcall => ?_, fun q hq => ?_⟩
      · obtain ⟨q, hq, rfl⟩ : ∃ q ∈ (t.fire now).1.given, Call.resize q = call := by
          simpa [fire, ht] using hcall
        exact ⟨q, by simpa [held?, ht] using Resize.Throttle.given_fire hq, rfl⟩
      · have hheld : q ∈ (t.fire now).1.after.held := by simpa [fire, ht, held?] using hq
        simpa [held?, ht] using Resize.Throttle.held_fire hheld

/-! ### Messages -/

/-- What an accepted message leads to: every call says what the payload says, the handler of the runner is
called only if it is the one that was accepted for, and what is held back afterwards was so before or is
the report in the payload. -/
structure Leads (a : Accepted) (c : Channel τ) (h : Handled τ) : Prop where
  called : ∀ call ∈ h.calls, call.Tells a.payload a.type
  ofRunner : ∀ payload, .runner payload ∈ h.calls → a.handler = .runner
  held : ∀ q ∈ h.after.held?, q ∈ c.held? ∨ Call.Tells a.payload a.type (.resize q)

/-- A message for which no handler is called. -/
theorem leads_of_not_called (a : Accepted) (c : Channel τ) (v : Verdict) :
    Leads a c ⟨c, v, []⟩ where
  called := by simp
  ofRunner := by simp
  held := fun _ hq => Or.inl hq

/-- One call that says what the payload says. -/
theorem leads_callOnce {a : Accepted} (react : Call → Reaction) (c : Channel τ) {call : Call}
    (h : call.Tells a.payload a.type) (hrunner : ∀ payload, call = .runner payload → a.handler = .runner) :
    Leads a c (c.callOnce react a.type call) where
  called := by simpa [callOnce] using h
  ofRunner := fun payload hcall => hrunner payload (by simpa [callOnce, eq_comm] using hcall)
  held := fun _ hq => Or.inl hq

variable [Resize.Clock τ]

/-- A size goes to the throttle, which gives it out, holds it or drops it. -/
theorem leads_offer {a : Accepted} (now : τ) {c : Channel τ} (v : Verdict)
    {t : Resize.Throttle τ Resize.Size} (ht : c.throttle = some t)
    {r : Resize.Report Resize.Size} (hr : Call.Tells a.payload a.type (.resize r)) :
    Leads a c ⟨{ c with throttle := some (t.offer now r).1.after }, v,
      (t.offer now r).1.given.map .resize⟩ where
  called := by
    intro call hcall
    obtain ⟨q, hq, rfl⟩ := List.mem_map.1 hcall
    rw [Resize.Throttle.given_offer hq]
    exact hr
  ofRunner := by simp
  held := by
    intro q hq
    rcases Resize.Throttle.held_offer (t := t) (r := r) (by simpa [held?] using hq)
      with rfl | hheld
    · exact Or.inr hr
    · exact Or.inl (by simpa [held?, ht] using hheld)

/-- A payload for a callback. -/
theorem leads_callBack (react : Call → Reaction) (now : τ) (c : Channel τ) (a : Accepted) :
    Leads a c (c.callBack react now a.type a.payload) := by
  obtain ⟨type, handler, payload⟩ := a
  cases type with
  | ready =>
      simp only [callBack]
      split
      · next h => exact leads_callOnce (a := ⟨.ready, handler, payload⟩) react c (.ready h) (by simp)
      · exact leads_of_not_called ..
  | executionComplete =>
      simp only [callBack]
      split
      · next h =>
          exact leads_callOnce (a := ⟨.executionComplete, handler, payload⟩) react c
            (.executionComplete h) (by simp)
      · exact leads_of_not_called ..
  | error =>
      simp only [callBack]
      split
      · next h => exact leads_callOnce (a := ⟨.error, handler, payload⟩) react c (.error h) (by simp)
      · exact leads_of_not_called ..
  | resize =>
      simp only [callBack]
      split
      · exact leads_of_not_called ..
      · exact leads_of_not_called ..
      · exact leads_of_not_called ..
      · next hr ht => exact leads_offer now _ ht (.resize hr)

/-- A message that has passed the guards. -/
theorem leads_dispatch (react : Call → Reaction) (now : τ) (c : Channel τ) (a : Accepted) :
    Leads a c (c.dispatch react now a) := by
  rw [dispatch]
  split
  · exact leads_callOnce react c (.named _ _) (by simp)
  · next hhandler => exact leads_callOnce react c (.runner _) fun _ _ => hhandler
  · exact leads_callBack react now c a

/-- A message leads to nothing, or it is accepted and leads to what a copy of it says. -/
theorem handle_cases (react : Call → Reaction) (now : τ) (e : Event) (c : Channel τ) :
    (∃ v, c.handle react now e = ⟨c, v, []⟩) ∨
      ∃ a, c.accept e = .ok a ∧ Leads a c (c.handle react now e) := by
  rw [handle]
  split
  · exact Or.inl ⟨_, rfl⟩
  · split
    · exact Or.inl ⟨_, rfl⟩
    · next a ha => exact Or.inr ⟨a, ha, leads_dispatch react now c a⟩

end Channel

end SketchHost
